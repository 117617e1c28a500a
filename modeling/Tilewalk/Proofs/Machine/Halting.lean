import Mathlib.Algebra.GroupWithZero.Nat
import Mathlib.Data.List.Forall2
import Tilewalk.Proofs.Session.Faultless

/-! # When walkers halt

How many steps a walker takes on a case, and how many rounds the cases of a level take when each
step takes `cost` rounds and each case but the first takes one more.
-/

namespace Tilewalk

/-! ## One machine -/

/-- The machine takes `k` steps until it no longer runs, and the last machine is the one then. -/
inductive HaltsAfter {μ : Type} [Machine μ] : Nat → μ → μ → Prop where
  | last {m m' : μ} : Machine.step m = (m', .ok ()) → Machine.isRunning m' = false →
      HaltsAfter 1 m m'
  | more {k : Nat} {m m' m'' : μ} : Machine.step m = (m', .ok ()) → Machine.isRunning m' = true →
      HaltsAfter k m' m'' → HaltsAfter (k + 1) m m''

section Machines

variable {μ : Type} [Machine μ] {k : Nat} {m m' m'' : μ}

theorem HaltsAfter.pos (h : HaltsAfter k m m') : 0 < k := by
  cases h <;> omega

theorem haltsAfter_iff_of_halted (hstep : Machine.step m = (m', .ok ()))
    (hhalted : Machine.isRunning m' = false) : HaltsAfter k m m'' ↔ k = 1 ∧ m'' = m' := by
  constructor
  · intro h
    cases h with
    | last hstep' => exact ⟨rfl, congrArg Prod.fst (hstep'.symm.trans hstep)⟩
    | more hstep' hruns =>
      obtain rfl := congrArg Prod.fst (hstep'.symm.trans hstep)
      simp [hhalted] at hruns
  · rintro ⟨rfl, rfl⟩
    exact .last hstep hhalted

theorem haltsAfter_iff_of_running (hstep : Machine.step m = (m', .ok ()))
    (hruns : Machine.isRunning m' = true) :
    HaltsAfter k m m'' ↔ ∃ j, k = j + 1 ∧ HaltsAfter j m' m'' := by
  constructor
  · intro h
    cases h with
    | last hstep' hhalted =>
      obtain rfl := congrArg Prod.fst (hstep'.symm.trans hstep)
      simp [hruns] at hhalted
    | more hstep' _ hmore =>
      obtain rfl := congrArg Prod.fst (hstep'.symm.trans hstep)
      exact ⟨_, rfl, hmore⟩
  · rintro ⟨j, rfl, hmore⟩
    exact .more hstep hruns hmore

theorem HaltsAfter.unique {j : Nat} (hj : HaltsAfter j m m') (hk : HaltsAfter k m m'') :
    j = k ∧ m' = m'' := by
  induction hj generalizing k with
  | last hstep hhalted =>
    obtain ⟨rfl, rfl⟩ := (haltsAfter_iff_of_halted hstep hhalted).mp hk
    exact ⟨rfl, rfl⟩
  | more hstep hruns _ ih =>
    obtain ⟨i, rfl, hi⟩ := (haltsAfter_iff_of_running hstep hruns).mp hk
    obtain ⟨rfl, rfl⟩ := ih hi
    exact ⟨rfl, rfl⟩

end Machines

/-! ## One case -/

/-- What is judged of a machine that has halted. -/
def Case.passes (test : Case) (w : Walker) : Bool :=
  (test.verdict (Machine.accepts w) (Machine.tape w)).passed

theorem Case.passes_iff {test : Case} {w : Walker} :
    test.passes w = true ↔ (w.ending = some .goal ↔ test.accept = true) ∧
      (test.output.unread = [] ∨ w.tape.unread = test.output.unread) := by
  have haccepts : Machine.accepts w = test.accept ↔ (w.ending = some .goal ↔ test.accept = true) := by
    show decide (w.ending = some .goal) = test.accept ↔ _
    rw [Bool.eq_iff_iff, decide_eq_true_iff]
  rw [passes, passed_verdict_iff, haccepts]
  rfl

/-- A new walker, bound to the program and to the case, halts after `k` steps and passes. -/
def PassesIn (p : Program) (k : Nat) (test : Case) : Prop :=
  ∃ w w', Session.launch ({} : Walker) p test = (w, .ok ()) ∧ HaltsAfter k w w' ∧
    test.passes w' = true

theorem passesIn_iff {p : Program} {k : Nat} {test : Case} {w : Walker}
    (hlaunch : Session.launch ({} : Walker) p test = (w, .ok ())) :
    PassesIn p k test ↔ ∃ w', HaltsAfter k w w' ∧ test.passes w' = true := by
  constructor
  · rintro ⟨v, w', hv, h⟩
    obtain rfl := congrArg Prod.fst (hv.symm.trans hlaunch)
    exact ⟨w', h⟩
  · rintro ⟨w', h⟩
    exact ⟨w, w', hlaunch, h⟩

theorem PassesIn.unique {p : Program} {j k : Nat} {test : Case} (hj : PassesIn p j test)
    (hk : PassesIn p k test) : j = k := by
  obtain ⟨w, _, hlaunch, hhalts, -⟩ := hj
  obtain ⟨_, hhalts', -⟩ := (passesIn_iff hlaunch).mp hk
  exact (hhalts.unique hhalts').1

/-! ## All cases -/

theorem PassesIn.unique_all {p : Program} {js ks : List Nat} {cases : List Case}
    (hj : List.Forall₂ (PassesIn p) js cases) (hk : List.Forall₂ (PassesIn p) ks cases) :
    js = ks := by
  have hunique : Relator.LeftUnique (PassesIn p) := fun _ _ _ => PassesIn.unique
  exact hunique.forall₂ hj hk

/-- The walker passes on its case, and the cases behind it pass, in `budget` rounds. -/
def PassesWithin (p : Program) (cost budget : Nat) (w : Walker) (test : Case) (rest : List Case) :
    Prop :=
  ∃ k w' ks, HaltsAfter k w w' ∧ test.passes w' = true ∧ List.Forall₂ (PassesIn p) ks rest ∧
    cost * (k + ks.sum) + rest.length ≤ budget

section Rounds

variable {p : Program} {cost budget : Nat} {w w' : Walker} {test : Case} {rest : List Case}

theorem not_passesWithin_of_lt (h : budget < cost) : ¬ PassesWithin p cost budget w test rest := by
  rintro ⟨k, w', ks, hhalts, -, -, hle⟩
  have hk : cost ≤ cost * (k + ks.sum) := Nat.le_mul_of_pos_right _ (by have := hhalts.pos; omega)
  omega

theorem passesWithin_iff_of_running (hstep : Machine.step w = (w', .ok ()))
    (hruns : Machine.isRunning w' = true) :
    PassesWithin p cost (cost + budget) w test rest ↔ PassesWithin p cost budget w' test rest := by
  constructor
  · rintro ⟨_, v, ks, hhalts, hpasses, hrest, hle⟩
    obtain ⟨j, rfl, hj⟩ := (haltsAfter_iff_of_running hstep hruns).mp hhalts
    refine ⟨j, v, ks, hj, hpasses, hrest, ?_⟩
    rw [Nat.add_right_comm, Nat.mul_succ] at hle
    omega
  · rintro ⟨j, v, ks, hhalts, hpasses, hrest, hle⟩
    refine ⟨j + 1, v, ks, .more hstep hruns hhalts, hpasses, hrest, ?_⟩
    rw [Nat.add_right_comm, Nat.mul_succ]
    omega

theorem not_passesWithin_of_failed (hstep : Machine.step w = (w', .ok ()))
    (hhalted : Machine.isRunning w' = false) (hfails : test.passes w' = false) :
    ¬ PassesWithin p cost budget w test rest := by
  rintro ⟨_, v, ks, hhalts, hpasses, -⟩
  obtain ⟨rfl, rfl⟩ := (haltsAfter_iff_of_halted hstep hhalted).mp hhalts
  simp [hfails] at hpasses

theorem passesWithin_last (hstep : Machine.step w = (w', .ok ()))
    (hhalted : Machine.isRunning w' = false) (hpasses : test.passes w' = true) :
    PassesWithin p cost (cost + budget) w test [] :=
  ⟨1, w', [], .last hstep hhalted, hpasses, .nil, by simp⟩

theorem passesWithin_iff_of_passed (hstep : Machine.step w = (w', .ok ()))
    (hhalted : Machine.isRunning w' = false) (hpasses : test.passes w' = true) {next : Case}
    {v : Walker} (hlaunch : Session.launch ({} : Walker) p next = (v, .ok ())) :
    PassesWithin p cost (cost + budget) w test (next :: rest) ↔
      ∃ left, budget = left + 1 ∧ PassesWithin p cost left v next rest := by
  constructor
  · rintro ⟨_, _, _, hhalts, -, hrest, hle⟩
    obtain ⟨rfl, rfl⟩ := (haltsAfter_iff_of_halted hstep hhalted).mp hhalts
    cases hrest with
    | @cons k _ ks _ hnext hrest =>
      obtain ⟨v', hhalts', hpasses'⟩ := (passesIn_iff hlaunch).mp hnext
      rw [List.sum_cons, Nat.mul_add, Nat.mul_one, List.length_cons] at hle
      obtain ⟨left, rfl⟩ : ∃ left, budget = left + 1 := ⟨budget - 1, by omega⟩
      exact ⟨left, rfl, k, v', ks, hhalts', hpasses', hrest, by omega⟩
  · rintro ⟨left, rfl, k, v', ks, hhalts', hpasses', hrest, hle⟩
    refine ⟨1, w', k :: ks, .last hstep hhalted, hpasses, ?_, ?_⟩
    · exact .cons ((passesIn_iff hlaunch).mpr ⟨v', hhalts', hpasses'⟩) hrest
    · rw [List.sum_cons, Nat.mul_add, Nat.mul_one, List.length_cons]
      omega

/-- From the first case on, this is what is asked of all cases. -/
theorem passesWithin_iff_all (hlaunch : Session.launch ({} : Walker) p test = (w, .ok ())) :
    PassesWithin p cost budget w test rest ↔
      ∃ ks, List.Forall₂ (PassesIn p) ks (test :: rest) ∧
        cost * ks.sum + rest.length ≤ budget := by
  constructor
  · rintro ⟨k, w', ks, hhalts, hpasses, hrest, hle⟩
    refine ⟨k :: ks, .cons ((passesIn_iff hlaunch).mpr ⟨w', hhalts, hpasses⟩) hrest, ?_⟩
    rwa [List.sum_cons]
  · rintro ⟨_, hall, hle⟩
    cases hall with
    | cons hfirst hrest =>
      obtain ⟨w', hhalts, hpasses⟩ := (passesIn_iff hlaunch).mp hfirst
      rw [List.sum_cons] at hle
      exact ⟨_, w', _, hhalts, hpasses, hrest, hle⟩

end Rounds

end Tilewalk
