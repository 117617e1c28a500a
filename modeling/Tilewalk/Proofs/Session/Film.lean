import Mathlib.Data.List.Chain
import Tilewalk.Proofs.Machine.Steps
import Tilewalk.Proofs.Session.Orders

/-! # The film of one machine

The token is put where a machine has been started. Before each step it is put there again, and when
the step succeeds it is moved to where the machine has gone.
-/

namespace Tilewalk

variable {μ : Type} [Machine μ]

/-! ## What orders make of a machine -/

def Order.next : Order → μ → μ
  | bindProgram p, m => Machine.bindProgram m p
  | bindTape tape, m => Machine.bindTape m tape
  | bindLimit limit, m => Machine.bindLimit m limit
  | start _, m => (Machine.start m).1
  | step .., m => (Machine.step m).1

theorem Order.Makes.eq_next {order : Order} {m m' : μ} (h : order.Makes m m') :
    m' = order.next m := by
  cases order with
  | bindProgram | bindTape | bindLimit => exact h.symm
  | start answer => exact (congrArg Prod.fst h).symm
  | step answer runs => exact (congrArg Prod.fst h.1).symm

def obey (m : μ) (orders : List Order) : μ := orders.foldl (fun m order => order.next m) m

theorem Makes.eq_obey {m m' : μ} {orders : List Order} (h : Makes m orders m') :
    m' = obey m orders := by
  induction h with
  | nil => rfl
  | snoc _ horder ih =>
    rw [horder.eq_next, ih]
    simp [obey]

theorem Makes.of_snoc {m m'' : μ} {orders : List Order} {order : Order}
    (h : Makes m (orders ++ [order]) m'') : ∃ m', Makes m orders m' ∧ order.Makes m' m'' := by
  generalize horders : orders ++ [order] = all at h
  cases h with
  | nil => simp at horders
  | snoc hmakes horder =>
    obtain ⟨rfl, hlast⟩ := List.append_inj' horders rfl
    obtain rfl := List.singleton_inj.mp hlast
    exact ⟨_, hmakes, horder⟩

theorem launch_of_makes {m m' : μ} {p : Program} {test : Case} {answer : Except MachineFault Unit}
    (h : Makes m (launchOrders p test answer) m') : Session.launch m p test = (m', answer) := by
  have hsplit : launchOrders p test answer =
      [.bindProgram p, .bindTape test.input, .bindLimit test.limit] ++ [.start answer] := rfl
  rw [hsplit] at h
  obtain ⟨bound, hbound, hstart⟩ := h.of_snoc
  obtain rfl := hbound.eq_obey
  exact hstart

/-! ## Steps that succeed -/

theorem obey_steps (m : μ) (runs : List Bool) :
    obey m (runs.map (.step (.ok ()))) = afterSteps m runs.length := by
  induction runs generalizing m with
  | nil => rfl
  | cons _ runs ih => exact ih (Machine.step m).1

/-- The orders of a case whose machine has been started, and in which no step has failed so far. -/
def walkOrders (p : Program) (test : Case) (runs : List Bool) : List Order :=
  launchOrders p test (.ok ()) ++ runs.map (.step (.ok ()))

theorem obey_walk {m m' : μ} {p : Program} {test : Case} (h : Session.launch m p test = (m', .ok ()))
    (runs : List Bool) : obey m (walkOrders p test runs) = afterSteps m' runs.length := by
  have hlaunch : obey m (launchOrders p test (.ok ())) = m' := congrArg Prod.fst h
  unfold obey walkOrders at *
  rw [List.foldl_append, hlaunch]
  exact obey_steps m' runs

/-! ## Frames -/

variable (layout : Layout) (settings : Settings)

/-- The token as a machine has it, shown at once or by a move. -/
def frameOf (m : μ) (length : Option Duration) : Frame :=
  ⟨layout.corner (Machine.position m), settings.style.fill (Machine.tape m).head, length⟩

/-- The frames that go with an order to the machine `m`. -/
def Order.frames : Order → μ → List Frame
  | start (.ok ()), m => [frameOf layout settings (Machine.start m).1 none]
  | step (.ok ()) _, m =>
    [frameOf layout settings m none,
      frameOf layout settings (Machine.step m).1 (some settings.run.stepLength)]
  | step (.error _) _, m => [frameOf layout settings m none]
  | _, _ => []

def framesOf (m : μ) : List Order → List Frame
  | [] => []
  | order :: orders => order.frames layout settings m ++ framesOf (order.next m) orders

theorem framesOf_append (m : μ) (first rest : List Order) :
    framesOf layout settings m (first ++ rest) =
      framesOf layout settings m first ++ framesOf layout settings (obey m first) rest := by
  induction first generalizing m with
  | nil => rfl
  | cons order first ih =>
    rw [List.cons_append, framesOf, framesOf, ih, List.append_assoc]
    rfl

theorem framesOf_singleton (m : μ) (order : Order) :
    framesOf layout settings m [order] = order.frames layout settings m :=
  List.append_nil _

theorem framesOf_launch {m m' : μ} {p : Program} {test : Case}
    (h : Session.launch m p test = (m', .ok ())) :
    framesOf layout settings m (launchOrders p test (.ok ())) =
      [frameOf layout settings m' none] := by
  have hm : (Session.launch m p test).1 = m' := congrArg Prod.fst h
  rw [← hm]
  rfl

theorem length_framesOf_walk (m : μ) (p : Program) (test : Case) (runs : List Bool) :
    (framesOf layout settings m (walkOrders p test runs)).length = 1 + 2 * runs.length := by
  have hsteps (m : μ) :
      (framesOf layout settings m (runs.map (.step (.ok ())))).length = 2 * runs.length := by
    induction runs generalizing m with
    | nil => rfl
    | cons _ runs ih =>
      rw [List.map_cons, framesOf, List.length_append, ih, List.length_cons]
      simp only [Order.frames, List.length_cons, List.length_nil]
      omega
  rw [walkOrders, framesOf_append, List.length_append, hsteps]
  rfl

/-! ## The path of one machine -/

/-- The frames of a machine that was `m` when it had been started, and then took `k` steps. -/
def pathFrames (m : μ) (k : Nat) : List Frame :=
  frameOf layout settings m none :: (List.range k).flatMap fun i =>
    [frameOf layout settings (afterSteps m i) none,
      frameOf layout settings (afterSteps m (i + 1)) (some settings.run.stepLength)]

theorem pathFrames_succ (m : μ) (k : Nat) :
    pathFrames layout settings m (k + 1) = pathFrames layout settings m k ++
      [frameOf layout settings (afterSteps m k) none,
        frameOf layout settings (afterSteps m (k + 1)) (some settings.run.stepLength)] := by
  simp [pathFrames, List.range_succ]

theorem getLast?_pathFrames (m : μ) (k : Nat) :
    ∃ length, (pathFrames layout settings m k).getLast? =
      some (frameOf layout settings (afterSteps m k) length) := by
  cases k with
  | zero => exact ⟨none, by simp [pathFrames, afterSteps]⟩
  | succ k => exact ⟨some settings.run.stepLength, by simp [pathFrames_succ]⟩

/-- The token stays where the frame before has it, unless it is moved. -/
def Frame.Follows (before after : Frame) : Prop :=
  after.length = none → after.target = before.target ∧ after.fill = before.fill

variable {layout settings}

theorem follows_again {m : μ} {k : Nat}
    (h : (pathFrames layout settings m k).IsChain Frame.Follows) :
    (pathFrames layout settings m k ++
      [frameOf layout settings (afterSteps m k) none]).IsChain Frame.Follows := by
  obtain ⟨length, hlast⟩ := getLast?_pathFrames layout settings m k
  apply h.append (.singleton _)
  intro before hbefore after hafter _
  obtain rfl := Option.some.inj (hlast.symm.trans hbefore)
  obtain rfl := Option.some.inj hafter
  exact ⟨rfl, rfl⟩

variable (layout settings) in
theorem follows_pathFrames (m : μ) (k : Nat) :
    (pathFrames layout settings m k).IsChain Frame.Follows := by
  induction k with
  | zero => exact .singleton _
  | succ k ih =>
    rw [pathFrames_succ, List.append_cons]
    apply (follows_again ih).append (.singleton _)
    intro before _ after hafter hlength
    obtain rfl := Option.some.inj hafter
    cases hlength

variable (layout settings) in
/-- What is shown of a case, by what the fresh machine `m` is asked for. -/
inductive CaseFilm (m : μ) (p : Program) (test : Case) : List Order → List Frame → Prop where
  | refused {m' : μ} {fault : MachineFault} : Session.launch m p test = (m', .error fault) →
      CaseFilm m p test (launchOrders p test (.error fault)) []
  | walked {m' : μ} {runs : List Bool} : Session.launch m p test = (m', .ok ()) →
      (∀ i < runs.length, (Machine.step (afterSteps m' i)).2 = .ok ()) →
      CaseFilm m p test (walkOrders p test runs) (pathFrames layout settings m' runs.length)
  | broken {m' : μ} {runs : List Bool} {fault : MachineFault} {last : Bool} :
      Session.launch m p test = (m', .ok ()) →
      (∀ i < runs.length, (Machine.step (afterSteps m' i)).2 = .ok ()) →
      (Machine.step (afterSteps m' runs.length)).2 = .error fault →
      CaseFilm m p test (walkOrders p test runs ++ [.step (.error fault) last])
        (pathFrames layout settings m' runs.length ++
          [frameOf layout settings (afterSteps m' runs.length) none])

section CaseFilms

variable {m m' : μ} {p : Program} {test : Case} {orders : List Order}

theorem CaseFilm.follows {frames : List Frame}
    (h : CaseFilm layout settings m p test orders frames) : frames.IsChain Frame.Follows := by
  cases h with
  | refused => exact .nil
  | walked => exact follows_pathFrames ..
  | broken => exact follows_again (follows_pathFrames ..)

theorem CaseFilm.stepped {m'' : μ} {frames : List Frame} {answer : Except MachineFault Unit}
    {last : Bool} (h : CaseFilm layout settings m p test orders frames) (hmay : MayStep orders)
    (hm : m' = obey m orders) (hstep : Machine.step m' = (m'', answer)) :
    CaseFilm layout settings m p test (orders ++ [.step answer last])
      (frames ++ (Order.step answer last).frames layout settings m') := by
  cases h with
  | refused =>
    unfold MayStep launchOrders at hmay
    simp at hmay
  | broken =>
    unfold MayStep at hmay
    simp at hmay
  | @walked first runs hlaunch hruns =>
    rw [obey_walk hlaunch] at hm
    subst hm
    rcases answer with fault | ⟨⟨⟩⟩
    · exact .broken hlaunch hruns (congrArg Prod.snd hstep)
    · have hruns' : ∀ i < (runs ++ [last]).length,
          (Machine.step (afterSteps first i)).2 = .ok () := by
        intro i hi
        rcases Nat.lt_succ_iff_lt_or_eq.mp (by simpa using hi) with hi | rfl
        · exact hruns i hi
        · exact congrArg Prod.snd hstep
      have hfilm : CaseFilm layout settings m p test _ _ := .walked hlaunch hruns'
      simpa [walkOrders, pathFrames_succ, Order.frames, afterSteps_succ] using hfilm

/-- What is shown for proper orders, when the machine has answered them as they say. -/
theorem caseFilm_of_orders (h : Proper p test orders) (hmakes : Makes m orders m') :
    CaseFilm layout settings m p test orders (framesOf layout settings m orders) := by
  induction h generalizing m' with
  | launched answer =>
    have hlaunch := launch_of_makes hmakes
    rcases answer with fault | ⟨⟨⟩⟩
    · exact .refused hlaunch
    · have hnone : ∀ i < ([] : List Bool).length, (Machine.step (afterSteps m' i)).2 = .ok () := by
        simp
      rw [framesOf_launch layout settings hlaunch]
      exact .walked hlaunch hnone
  | stepped answer runs _ hmay ih =>
    obtain ⟨last, hlast, hstep, -⟩ := hmakes.of_snoc
    have hm := hlast.eq_obey
    rw [framesOf_append, framesOf_singleton, ← hm]
    exact (ih hlast).stepped hmay hm hstep

end CaseFilms

end Tilewalk
