import Tilewalk.Proofs.Session.Locking

/-! # Machines that keep a log

The notes on a session say what its machines are asked to do. A machine that writes down each call by
itself is told the same: its log is proper orders for the case under way, on the program that the run
has locked.
-/

namespace Tilewalk

/-- A machine with a log of what it has been asked to do. -/
structure LoggedMachine (μ : Type) where
  machine : μ
  orders : List Order := []

namespace LoggedMachine

variable {μ : Type} [Machine μ]

def note (m : LoggedMachine μ) (machine : μ) (order : Order) : LoggedMachine μ :=
  ⟨machine, m.orders ++ [order]⟩

instance : Machine (LoggedMachine μ) where
  bindProgram m p := m.note (Machine.bindProgram m.machine p) (.bindProgram p)
  bindTape m tape := m.note (Machine.bindTape m.machine tape) (.bindTape tape)
  bindLimit m limit := m.note (Machine.bindLimit m.machine limit) (.bindLimit limit)
  start m :=
    let (machine, answer) := Machine.start m.machine
    (m.note machine (.start answer), answer)
  step m :=
    let (machine, answer) := Machine.step m.machine
    (m.note machine (.step answer (Machine.isRunning machine)), answer)
  isRunning m := Machine.isRunning m.machine
  accepts m := Machine.accepts m.machine
  position m := Machine.position m.machine
  tape m := Machine.tape m.machine
  steps m := Machine.steps m.machine

end LoggedMachine

section Orders

variable {μ : Type} [Machine μ] {m m' : LoggedMachine μ}

theorem Order.Makes.logged {order : Order} (h : order.Makes m m') :
    m'.orders = m.orders ++ [order] := by
  cases order with
  | bindProgram | bindTape | bindLimit =>
    subst h
    rfl
  | start answer =>
    obtain ⟨rfl, rfl⟩ := Prod.mk.inj h
    rfl
  | step answer runs =>
    obtain ⟨hstep, rfl⟩ := h
    obtain ⟨rfl, rfl⟩ := Prod.mk.inj hstep
    rfl

theorem Makes.logged {orders : List Order} (h : Makes m orders m') :
    m'.orders = m.orders ++ orders := by
  induction h with
  | nil => exact (List.append_nil _).symm
  | snoc _ horder ih => rw [horder.logged, ih, List.append_assoc]

end Orders

namespace Session

variable {μ σ ε : Type} [Machine μ] [Screen σ] [Editor ε]

/-- The machine at hand has been made for the case under way. -/
def MadeForCase (notes : List Note) (s : Session μ σ ε) : Prop :=
  ∀ m, s.machine = some m → ∃ index p test, .made s.serial index p test ∈ notes ∧
    s.program = some p ∧ s.cases[s.cursor.index]? = some test

theorem madeForCase_change {notes new : List Note} {s t : Session μ σ ε} (h : MadeForCase notes s)
    (hchange : Change s new t) : MadeForCase (notes ++ new) t := by
  have hkept {m : μ} (hm : s.machine = some m) : ∃ index p test,
      .made s.serial index p test ∈ notes ++ new ∧ s.program = some p ∧
        s.cases[s.cursor.index]? = some test := by
    obtain ⟨index, p, test, hmade, hcase⟩ := h m hm
    exact ⟨index, p, test, List.mem_append_left _ hmade, hcase⟩
  intro m hm
  cases hchange with
  | paused | resumed | landed | screen | taken | continued => exact hkept hm
  | moved inStep | broke inStep => exact hkept inStep.machine
  | started due | refused due =>
    exact ⟨_, _, _, List.mem_append_right _ List.mem_cons_self, due.program, due.test⟩
  | opened rest | changed rest => cases rest.machine.symm.trans hm
  | turned _ _ machine => cases machine.symm.trans hm
  | passed | finished | stopped => cases hm

theorem madeForCase_of_path {fresh : Nat → μ} {settings : Settings} {screen : σ} {editor : ε}
    {notes : List Note} {s : Session μ σ ε}
    (h : Path (unloaded fresh settings screen editor) notes s) : MadeForCase notes s := by
  refine h.invariant (P := MadeForCase) [] (fun _ _ _ _ => madeForCase_change) ?_
  simp [MadeForCase, unloaded]

/-! ## Logs of whole runs -/

section Logs

variable (fresh : Nat → μ) (settings : Settings) (screen : σ) (editor : ε) (deeds : List (Deed σ))

/-- A session whose machines begin with empty logs. -/
def logging : Session (LoggedMachine μ) σ ε :=
  initial (fun i => ⟨fresh i, []⟩) settings screen editor

/-- Whatever is done, the machine at hand has been asked for what a machine may be asked for the
case under way, in that order and for nothing else. -/
theorem logs_are_proper {m : LoggedMachine μ}
    (hm : ((logging fresh settings screen editor).after deeds).machine = some m) :
    let s := (logging fresh settings screen editor).after deeds
    ∃ p test, s.program = some p ∧ s.cases[s.cursor.index]? = some test ∧ Proper p test m.orders := by
  intro s
  obtain ⟨notes, hpath, -⟩ := path_after_initial (fun i => ⟨fresh i, []⟩ : Nat → LoggedMachine μ)
    settings screen editor deeds
  obtain ⟨index, p, test, hmade, hprogram, htest⟩ := madeForCase_of_path hpath m hm
  obtain ⟨hkept, hfresh⟩ := kept_of_path hpath
  have horders : m.orders = ordersTo s.serial notes := by
    have hmakes := (hkept.inHand m hm).makes
    rw [hfresh] at hmakes
    exact hmakes.logged
  rw [horders]
  exact ⟨p, test, hprogram, htest, (hkept.records.orders _ index p test hmade).1⟩

/-- A run that goes on asks its machines for the program and the cases that it has begun with. -/
theorem logs_stay_with_the_run {s t : Session (LoggedMachine μ) σ ε} {more : List (Deed σ)}
    (hs : s = (logging fresh settings screen editor).after deeds) (hstopped : s.phase = .stopped)
    (hprogram : s.program ≠ none)
    (hactive : ∀ k < more.length, (s.play.1.after (more.take k)).phase ≠ .stopped)
    (ht : t = s.play.1.after more) {m : LoggedMachine μ} (hm : t.machine = some m) :
    ∃ p test, s.program = some p ∧ s.casesToRun[t.cursor.index]? = some test ∧
      Proper p test m.orders := by
  have hlevel : SameLevel s.openRun t := by
    rw [play_stopped hstopped hprogram] at hactive ht
    rw [ht]
    exact (sameLevel_beginCase s.openRun).trans (sameLevel_after hactive)
  have hafter : t = (logging fresh settings screen editor).after
      (deeds ++ .call .play :: more) := by
    rw [after_append, after_cons, ← hs, ht]
    rfl
  obtain ⟨p, test, hp, htest, hproper⟩ :=
    logs_are_proper fresh settings screen editor _ (hafter ▸ hm)
  rw [← hafter, hlevel.program] at hp
  rw [← hafter, hlevel.cases] at htest
  exact ⟨p, test, hp, htest, hproper⟩

end Logs

end Session

end Tilewalk
