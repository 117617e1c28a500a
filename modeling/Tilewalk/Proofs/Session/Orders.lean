import Mathlib.Data.List.TakeWhile
import Tilewalk.Proofs.Session.Faultless

/-! # What machines are asked to do

Each machine is made for one case. It is bound to the program and to the case and started, then it
takes steps as long as each of them succeeds and leaves it running. Once its case has been judged or
given up, it is left alone.
-/

namespace Tilewalk

variable {μ : Type} [Machine μ]

/-! ## Orders to one machine -/

/-- The order makes `m'` of the machine `m`, with the answer that it says. -/
def Order.Makes : Order → μ → μ → Prop
  | bindProgram p, m, m' => Machine.bindProgram m p = m'
  | bindTape tape, m, m' => Machine.bindTape m tape = m'
  | bindLimit limit, m, m' => Machine.bindLimit m limit = m'
  | start answer, m, m' => Machine.start m = (m', answer)
  | step answer runs, m, m' => Machine.step m = (m', answer) ∧ Machine.isRunning m' = runs

/-- The orders, one after the other, make the last machine of the first. -/
inductive Makes (m : μ) : List Order → μ → Prop where
  | nil : Makes m [] m
  | snoc {m' m'' : μ} {orders : List Order} {order : Order} :
      Makes m orders m' → order.Makes m' m'' → Makes m (orders ++ [order]) m''

/-- Another step can be asked for: the machine has just been started, or it has taken a step and
still runs. -/
def MayStep (orders : List Order) : Prop :=
  orders.getLast? = some (.start (.ok ())) ∨ orders.getLast? = some (.step (.ok ()) true)

def launchOrders (p : Program) (test : Case) (answer : Except MachineFault Unit) : List Order :=
  [.bindProgram p, .bindTape test.input, .bindLimit test.limit, .start answer]

/-- The orders that a machine can get for a case. -/
inductive Proper (p : Program) (test : Case) : List Order → Prop where
  | launched (answer : Except MachineFault Unit) : Proper p test (launchOrders p test answer)
  | stepped {orders : List Order} (answer : Except MachineFault Unit) (runs : Bool) :
      Proper p test orders → MayStep orders → Proper p test (orders ++ [.step answer runs])

theorem makes_launch {m m' : μ} {p : Program} {test : Case} {answer : Except MachineFault Unit}
    (h : Session.launch m p test = (m', answer)) : Makes m (launchOrders p test answer) m' := by
  have hprogram : Makes m [.bindProgram p] (Machine.bindProgram m p) := .snoc .nil rfl
  have htape : Makes m [.bindProgram p, .bindTape test.input] _ := .snoc hprogram rfl
  have hlimit : Makes m [.bindProgram p, .bindTape test.input, .bindLimit test.limit] _ :=
    .snoc htape rfl
  exact .snoc hlimit h

/-! ## Orders among the notes -/

namespace Note

def serial? : Note → Option Nat
  | made serial _ _ _ => some serial
  | _ => none

def madeFor? : Note → Option Nat
  | made _ index _ _ => some index
  | _ => none

def begun? : Note → Option Nat
  | event (.caseStarted index) => some index
  | _ => none

def orderTo? (i : Nat) : Note → Option Order
  | order serial o => if serial = i then some o else none
  | _ => none

def endsCase : Note → Bool
  | event (.caseFinished _) | event .stopped => true
  | _ => false

end Note

def ordersTo (i : Nat) (notes : List Note) : List Order := notes.filterMap (Note.orderTo? i)

@[simp] theorem ordersTo_append (i : Nat) (first rest : List Note) :
    ordersTo i (first ++ rest) = ordersTo i first ++ ordersTo i rest :=
  List.filterMap_append

/-- Whether the case of the machine `i` has been judged or given up. -/
def isClosed (i : Nat) (notes : List Note) : Bool :=
  (notes.dropWhile fun note => note.serial? ≠ some i).any Note.endsCase

/-- No machine gets an order when its case has been judged or given up. -/
def Timely (notes : List Note) : Prop :=
  ∀ before i order after, notes = before ++ .order i order :: after → isClosed i before = false

theorem isClosed_append {i : Nat} {notes new : List Note}
    (hnew : ∀ note ∈ new, note.endsCase = false) :
    isClosed i (notes ++ new) = isClosed i notes := by
  have hnone : ∀ rest : List Note, (∀ note ∈ rest, note ∈ new) →
      rest.any Note.endsCase = false := by
    intro rest hrest
    rw [List.any_eq_false]
    intro note hnote
    simp [hnew note (hrest note hnote)]
  unfold isClosed
  rw [List.dropWhile_append]
  split_ifs with h
  · rw [List.isEmpty_iff.mp h]
    exact hnone _ fun note hnote => (List.dropWhile_sublist _).subset hnote
  · rw [List.any_append, hnone new fun _ h => h, Bool.or_false]

theorem isClosed_of_not_made {i : Nat} {notes : List Note}
    (h : ∀ note ∈ notes, note.serial? ≠ some i) : isClosed i notes = false := by
  unfold isClosed
  rw [List.dropWhile_eq_nil_iff.mpr (by simpa using h)]
  rfl

theorem Timely.append {notes new : List Note} (h : Timely notes)
    (hnew : ∀ i order, .order i order ∈ new →
      isClosed i notes = false ∧ ∀ note ∈ new, note.endsCase = false) :
    Timely (notes ++ new) := by
  intro before i order after heq
  -- The order is among the new notes, or it is an old one.
  rcases List.append_eq_append_iff.mp heq with ⟨first, rfl, hfirst⟩ | ⟨rest, rfl, hrest⟩
  · obtain ⟨hopen, hquiet⟩ := hnew i order (by simp [hfirst])
    rw [isClosed_append, hopen]
    intro note hnote
    exact hquiet note (by simp [hfirst, hnote])
  · cases rest with
    | nil =>
      have hmem : .order i order ∈ new := by
        rw [List.nil_append] at hrest
        simp [← hrest]
      simpa using (hnew i order hmem).1
    | cons note rest =>
      obtain ⟨rfl, -⟩ := List.cons.inj hrest
      exact h before i order rest rfl

/-! ## The invariant -/

/-- The notes on the first `made` machines. -/
structure Records (fresh : Nat → μ) (made : Nat) (notes : List Note) : Prop where
  serials : notes.filterMap Note.serial? = List.range made
  cases : notes.filterMap Note.madeFor? = notes.filterMap Note.begun?
  orders : ∀ i index p test, .made i index p test ∈ notes →
    Proper p test (ordersTo i notes) ∧ ∃ m, Makes (fresh i) (ordersTo i notes) m
  strangers : ∀ i, made ≤ i → ordersTo i notes = []
  timely : Timely notes

theorem Records.lt_of_mem {fresh : Nat → μ} {made : Nat} {notes : List Note}
    (h : Records fresh made notes) {note : Note} {i : Nat} (hnote : note ∈ notes)
    (hi : note.serial? = some i) : i < made := by
  rw [← List.mem_range, ← h.serials]
  exact List.mem_filterMap.mpr ⟨note, hnote, hi⟩

theorem Records.exists_made {fresh : Nat → μ} {made : Nat} {notes : List Note}
    (h : Records fresh made notes) {i : Nat} (hi : i < made) :
    ∃ index p test, .made i index p test ∈ notes := by
  rw [← List.mem_range, ← h.serials] at hi
  obtain ⟨note, hnote, hserial⟩ := List.mem_filterMap.mp hi
  cases note with
  | made serial index p test =>
    obtain rfl := Option.some.inj hserial
    exact ⟨index, p, test, hnote⟩
  | event | order | taken => cases hserial

/-- Notes that say nothing about machines. -/
def Note.IsAside : Note → Prop
  | .event (.caseStarted _) => False
  | .event _ | .taken _ => True
  | _ => False

theorem Note.IsAside.nothing {note : Note} (h : note.IsAside) : note.serial? = none ∧
    note.madeFor? = none ∧ note.begun? = none ∧ ∀ i, note.orderTo? i = none := by
  cases note with
  | event e =>
    cases e with
    | caseStarted => cases h
    | _ => exact ⟨rfl, rfl, rfl, fun _ => rfl⟩
  | taken => exact ⟨rfl, rfl, rfl, fun _ => rfl⟩
  | made | order => cases h

theorem ordersTo_aside {new : List Note} (hnew : ∀ note ∈ new, note.IsAside) (i : Nat) :
    ordersTo i new = [] :=
  List.filterMap_eq_nil_iff.mpr fun note hnote => (hnew note hnote).nothing.2.2.2 i

theorem Records.aside {fresh : Nat → μ} {made : Nat} {notes new : List Note}
    (h : Records fresh made notes) (hnew : ∀ note ∈ new, note.IsAside) :
    Records fresh made (notes ++ new) := by
  have hnone {f : Note → Option Nat} (hf : ∀ note ∈ new, f note = none) :
      (notes ++ new).filterMap f = notes.filterMap f := by
    rw [List.filterMap_append, List.filterMap_eq_nil_iff.mpr hf, List.append_nil]
  have horders (i : Nat) : ordersTo i (notes ++ new) = ordersTo i notes := by
    rw [ordersTo_append, ordersTo_aside hnew, List.append_nil]
  refine ⟨?_, ?_, fun i index p test hmade => ?_, fun i hi => ?_, ?_⟩
  · rw [hnone fun note hnote => (hnew note hnote).nothing.1, h.serials]
  · rw [hnone fun note hnote => (hnew note hnote).nothing.2.1,
      hnone fun note hnote => (hnew note hnote).nothing.2.2.1, h.cases]
  · rw [horders]
    rcases List.mem_append.mp hmade with hmade | hmade
    · exact h.orders i index p test hmade
    · exact absurd (hnew _ hmade).nothing.1 (by simp [Note.serial?])
  · rw [horders, h.strangers i hi]
  · refine h.timely.append fun i order hmem => ?_
    have hno := (hnew _ hmem).nothing.2.2.2 i
    simp [Note.orderTo?] at hno

theorem ordersTo_launchNotes (i serial index : Nat) (p : Program) (test : Case)
    (answer : Except MachineFault Unit) : ordersTo i (launchNotes serial index p test answer) =
      if serial = i then launchOrders p test answer else [] := by
  split_ifs with h <;>
    simp [ordersTo, launchNotes, launchOrders, List.filterMap_cons, Note.orderTo?, h]

theorem Records.isClosed_next {fresh : Nat → μ} {made : Nat} {notes : List Note}
    (h : Records fresh made notes) : isClosed made notes = false :=
  isClosed_of_not_made fun _ hnote hmade => Nat.lt_irrefl _ (h.lt_of_mem hnote hmade)

theorem endsCase_launchNotes {serial index : Nat} {p : Program} {test : Case}
    {answer : Except MachineFault Unit} :
    ∀ note ∈ launchNotes serial index p test answer, note.endsCase = false := by
  simp [launchNotes, Note.endsCase]

theorem Records.launched {fresh : Nat → μ} {made : Nat} {notes : List Note}
    (h : Records fresh made notes) (index : Nat) {p : Program} {test : Case} {m : μ}
    {answer : Except MachineFault Unit} (hl : Session.launch (fresh made) p test = (m, answer)) :
    Records fresh (made + 1) (notes ++ launchNotes made index p test answer) := by
  refine ⟨?_, ?_, fun i index' p' test' hmade => ?_, fun i hi => ?_, ?_⟩
  · rw [List.filterMap_append, h.serials, List.range_succ]
    rfl
  · rw [List.filterMap_append, List.filterMap_append, h.cases]
    rfl
  · rw [ordersTo_append, ordersTo_launchNotes]
    rcases List.mem_append.mp hmade with hold | hnew
    · have hlt := h.lt_of_mem hold rfl
      rw [if_neg (by omega), List.append_nil]
      exact h.orders i index' p' test' hold
    · simp only [launchNotes, List.mem_cons, Note.made.injEq, reduceCtorEq, or_false,
        List.not_mem_nil] at hnew
      obtain ⟨rfl, -, rfl, rfl⟩ := hnew
      rw [if_pos rfl, h.strangers i (Nat.le_refl i), List.nil_append]
      exact ⟨.launched answer, m, makes_launch hl⟩
  · rw [ordersTo_append, ordersTo_launchNotes, if_neg (by omega), h.strangers i (by omega)]
    rfl
  · refine h.timely.append fun i order hmem => ⟨?_, endsCase_launchNotes⟩
    have hi : i = made := by
      simp only [launchNotes, List.mem_cons, Note.order.injEq, reduceCtorEq, List.not_mem_nil,
        false_or, or_false] at hmem
      omega
    rw [hi, h.isClosed_next]

theorem Records.stepped {fresh : Nat → μ} {made i : Nat} {notes : List Note}
    (h : Records fresh made notes) (hi : i < made) (hopen : isClosed i notes = false) {m m' : μ}
    (hmakes : Makes (fresh i) (ordersTo i notes) m) (hmay : MayStep (ordersTo i notes))
    {answer : Except MachineFault Unit} (hstep : Machine.step m = (m', answer)) :
    Records fresh made (notes ++ [.order i (.step answer (Machine.isRunning m'))]) := by
  let order := Order.step answer (Machine.isRunning m')
  have horders (j : Nat) :
      ordersTo j [.order i order] = if i = j then [order] else [] := by
    split_ifs with hij <;> simp [ordersTo, Note.orderTo?, hij]
  refine ⟨?_, ?_, fun j index p test hmade => ?_, fun j hj => ?_, ?_⟩
  · rw [List.filterMap_append, h.serials]
    exact List.append_nil _
  · rw [List.filterMap_append, List.filterMap_append, h.cases]
    rfl
  · rw [ordersTo_append, horders]
    obtain ⟨hproper, hsome⟩ := h.orders j index p test (by simpa using hmade)
    split_ifs with hij
    · subst hij
      exact ⟨hproper.stepped _ _ hmay, m', hmakes.snoc ⟨hstep, rfl⟩⟩
    · rw [List.append_nil]
      exact ⟨hproper, hsome⟩
  · rw [ordersTo_append, horders, if_neg (by omega), h.strangers j hj]
    rfl
  · refine h.timely.append fun j order hmem => ?_
    simp only [List.mem_singleton, Note.order.injEq] at hmem
    rw [hmem.1]
    exact ⟨hopen, by simp [Note.endsCase]⟩

namespace Session

variable {σ ε : Type}

/-- The machine `m` of a session has got its orders so far. -/
structure InHand (notes : List Note) (s : Session μ σ ε) (m : μ) : Prop where
  made : s.serial < s.tally.started
  makes : Makes (s.fresh s.serial) (ordersTo s.serial notes) m
  notClosed : isClosed s.serial notes = false
  ready : s.tasks = [.step] → MayStep (ordersTo s.serial notes)
  midway : s.tasks = [] → s.fault = none → (ordersTo s.serial notes).getLast? =
    some (.step (.ok ()) (Machine.isRunning m))

/-- The notes are true of the session, and all orders were proper. -/
structure Kept (notes : List Note) (s : Session μ σ ε) : Prop where
  records : Records s.fresh s.tally.started notes
  inHand : ∀ m, s.machine = some m → InHand notes s m

theorem Kept.released {notes new : List Note} {s t : Session μ σ ε} (h : Kept notes s)
    (hnew : ∀ note ∈ new, note.IsAside) (hfresh : t.fresh = s.fresh)
    (hstarted : t.tally.started = s.tally.started) (hmachine : t.machine = none) :
    Kept (notes ++ new) t := by
  refine ⟨?_, fun m hm => ?_⟩
  · rw [hfresh, hstarted]
    exact h.records.aside hnew
  · rw [hmachine] at hm
    cases hm

theorem Kept.aside {notes new : List Note} {s t : Session μ σ ε} (h : Kept notes s)
    (hnew : ∀ note ∈ new, note.IsAside ∧ note.endsCase = false) (hfresh : t.fresh = s.fresh)
    (hstarted : t.tally.started = s.tally.started) (hmachine : t.machine = s.machine)
    (htasks : t.tasks = s.tasks) (hfault : t.fault = s.fault) : Kept (notes ++ new) t := by
  have hserial : t.serial = s.serial := by simp only [serial, hstarted]
  have hasides : ∀ note ∈ new, note.IsAside := fun note hnote => (hnew note hnote).1
  have horders : ordersTo s.serial (notes ++ new) = ordersTo s.serial notes := by
    rw [ordersTo_append, ordersTo_aside hasides, List.append_nil]
  refine ⟨?_, fun m hm => ?_⟩
  · rw [hfresh, hstarted]
    exact h.records.aside hasides
  have hin := h.inHand m (hmachine ▸ hm)
  refine ⟨?_, ?_, ?_, ?_, ?_⟩
  · rw [hserial, hstarted]
    exact hin.made
  · rw [hserial, hfresh, horders]
    exact hin.makes
  · rw [hserial, isClosed_append fun note hnote => (hnew note hnote).2]
    exact hin.notClosed
  · rw [hserial, htasks, horders]
    exact hin.ready
  · rw [hserial, htasks, hfault, horders]
    exact hin.midway

/-- When a machine goes on, its last order was a step after which it still ran. -/
theorem Kept.continued {notes : List Note} {s : Session μ σ ε} (h : Kept notes s) {m : μ}
    (hmidway : Midway s) (hm : s.machine = some m) (hruns : ¬ s.HasEnded m) :
    Kept notes (s.enqueue .step) := by
  simp only [HasEnded, not_or, Decidable.not_not, Bool.not_eq_false] at hruns
  have hin := h.inHand m hm
  have hlast := hin.midway hmidway.tasks hruns.1
  rw [hruns.2] at hlast
  refine ⟨h.records, fun m' hm' => ?_⟩
  obtain rfl : m = m' := Option.some.inj (hm.symm.trans hm')
  exact ⟨hin.made, hin.makes, hin.notClosed, fun _ => .inr hlast, by simp [enqueue]⟩

theorem Kept.launched {notes : List Note} {s t : Session μ σ ε} (h : Kept notes s) {p : Program}
    {test : Case} {m : μ} {answer : Except MachineFault Unit}
    (hl : launch (s.fresh s.tally.started) p test = (m, answer)) (hfresh : t.fresh = s.fresh)
    (hstarted : t.tally.started = s.tally.started + 1) (hmachine : t.machine = some m)
    (hready : t.tasks = [.step] → answer = .ok ()) (hmidway : t.tasks = [] → t.fault ≠ none) :
    Kept (notes ++ launchNotes s.tally.started s.cursor.index p test answer) t := by
  refine ⟨?_, fun m' hm' => ?_⟩
  · rw [hfresh, hstarted]
    exact h.records.launched _ hl
  · obtain rfl : m = m' := Option.some.inj (hmachine.symm.trans hm')
    have hserial : t.serial = s.tally.started := by simp only [serial, hstarted, Nat.add_sub_cancel]
    have horders : ordersTo s.tally.started
        (notes ++ launchNotes s.tally.started s.cursor.index p test answer) =
          launchOrders p test answer := by
      rw [ordersTo_append, ordersTo_launchNotes, if_pos rfl, h.records.strangers _ (Nat.le_refl _)]
      rfl
    refine ⟨?_, ?_, ?_, fun htasks => ?_, fun htasks hfault => absurd hfault (hmidway htasks)⟩
    · rw [hserial, hstarted]
      exact Nat.lt_succ_self _
    · rw [hserial, hfresh, horders]
      exact makes_launch hl
    · rw [hserial, isClosed_append endsCase_launchNotes]
      exact h.records.isClosed_next
    · rw [hserial, horders, hready htasks]
      exact .inl rfl

theorem Kept.stepped {notes : List Note} {s t : Session μ σ ε} (h : Kept notes s) {m m' : μ}
    (hin : InStep s m) {answer : Except MachineFault Unit} (hstep : Machine.step m = (m', answer))
    (hfresh : t.fresh = s.fresh) (hstarted : t.tally.started = s.tally.started)
    (hmachine : t.machine = some m') (htasks : t.tasks = [])
    (hmidway : t.fault = none → answer = .ok ()) :
    Kept (notes ++ [.order s.serial (.step answer (Machine.isRunning m'))]) t := by
  have hhand := h.inHand m hin.machine
  refine ⟨?_, fun m'' hm'' => ?_⟩
  · rw [hfresh, hstarted]
    exact h.records.stepped hhand.made hhand.notClosed hhand.makes (hhand.ready hin.tasks) hstep
  · obtain rfl : m' = m'' := Option.some.inj (hmachine.symm.trans hm'')
    have hserial : t.serial = s.serial := by simp only [serial, hstarted]
    have horders : ordersTo s.serial
        (notes ++ [.order s.serial (.step answer (Machine.isRunning m'))]) =
          ordersTo s.serial notes ++ [.step answer (Machine.isRunning m')] := by
      simp [ordersTo, Note.orderTo?]
    refine ⟨?_, ?_, ?_, fun h => ?_, fun _ hfault => ?_⟩
    · rw [hserial, hstarted]
      exact hhand.made
    · rw [hserial, hfresh, horders]
      exact hhand.makes.snoc ⟨hstep, rfl⟩
    · rw [hserial, isClosed_append (by simp [Note.endsCase])]
      exact hhand.notClosed
    · simp [htasks] at h
    · rw [hserial, horders, hmidway hfault]
      simp

variable [Screen σ] [Editor ε]

omit [Machine μ] in
@[simp] theorem started_addVerdict (tally : Tally) (passed : Bool) :
    (tally.addVerdict passed).started = tally.started := by
  unfold Tally.addVerdict
  split_ifs <;> rfl

theorem news_isAside {e : Event} (h : e.IsNews) : (Note.event e).IsAside := by
  cases e with
  | levelLoaded | loadFailed => trivial
  | runStarted | caseStarted | caseFinished | runFinished | stopped => cases h

theorem kept_change {notes new : List Note} {s t : Session μ σ ε} (h : Kept notes s)
    (hchange : Change s new t) : Kept (notes ++ new) t := by
  cases hchange with
  | paused | resumed | landed | screen => exact h.aside (by simp) rfl rfl rfl rfl rfl
  | taken => exact h.aside (by simp [Note.IsAside, Note.endsCase]) rfl rfl rfl rfl rfl
  | opened rest => exact h.released (by simp [Note.IsAside]) rfl rfl rest.machine
  | turned _ _ machine => exact h.released (by simp) rfl rfl machine
  | started due launched =>
    exact h.launched launched rfl rfl rfl (fun _ => rfl) (by simp [enqueue])
  | refused due launched =>
    have hnone {m : μ} {test : Case} {fault : MachineFault} :
        ((s.onMachine m test).failed fault).tasks = [] := due.tasks
    exact h.launched launched rfl rfl rfl (by simp [hnone]) (by simp [failed])
  | moved inStep step => exact h.stepped inStep step rfl rfl rfl rfl fun _ => rfl
  | broke inStep step => exact h.stepped inStep step rfl rfl rfl rfl (by simp [failed])
  | continued midway machine runs =>
    rw [List.append_nil]
    exact h.continued midway machine runs
  | passed => exact h.released (by simp [Note.IsAside]) rfl (started_addVerdict ..) rfl
  | finished => exact h.released (by simp [Note.IsAside]) rfl (started_addVerdict ..) rfl
  | stopped => exact h.released (by simp [Note.IsAside]) rfl rfl rfl
  | changed rest _ _ _ _ news isNews =>
    refine h.released (fun note hnote => ?_) rfl rfl rest.machine
    obtain ⟨e, he, rfl⟩ := List.mem_map.mp hnote
    exact news_isAside (isNews e he)

theorem kept_of_path {fresh : Nat → μ} {settings : Settings} {screen : σ} {editor : ε}
    {notes : List Note} {s : Session μ σ ε}
    (h : Path (unloaded fresh settings screen editor) notes s) :
    Kept notes s ∧ s.fresh = fresh := by
  have hrecords : Records fresh 0 [] := ⟨rfl, rfl, by simp, fun _ _ => rfl, by simp [Timely]⟩
  have hstart : Kept [] (unloaded fresh settings screen editor) := ⟨hrecords, by simp [unloaded]⟩
  refine h.invariant (P := fun notes s => Kept notes s ∧ s.fresh = fresh) [] ?_ ⟨hstart, rfl⟩
  rintro notes s new t ⟨hkept, hfresh⟩ hchange
  exact ⟨kept_change hkept hchange, hchange.fresh.trans hfresh⟩

/-! ## Who is asked for nothing -/

section Asked

variable {s t : Session μ σ ε} {new : List Note}

theorem Change.asked_le (h : Change s new t) :
    s.tally.started ≤ t.tally.started ∧ s.tally.steps ≤ t.tally.steps := by
  have hsteps : s.tally.steps ≤ t.tally.steps := by
    rw [h.steps]
    exact Nat.le_add_right ..
  refine ⟨?_, hsteps⟩
  cases h with
  | started | refused => exact Nat.le_succ _
  | passed | finished => exact (started_addVerdict ..).ge
  | _ => exact Nat.le_refl _

theorem Path.asked_le (h : Path s new t) :
    s.tally.started ≤ t.tally.started ∧ s.tally.steps ≤ t.tally.steps := by
  induction h with
  | refl => exact ⟨Nat.le_refl _, Nat.le_refl _⟩
  | change _ hchange ih =>
    exact ⟨ih.1.trans hchange.asked_le.1, ih.2.trans hchange.asked_le.2⟩

theorem Change.ordersTo_of_unasked (h : Change s new t)
    (hstarted : t.tally.started = s.tally.started) (hsteps : t.tally.steps = s.tally.steps)
    (i : Nat) : ordersTo i new = [] := by
  cases h with
  | started | refused => exact absurd hstarted (Nat.succ_ne_self _)
  | moved | broke => exact absurd hsteps (Nat.succ_ne_self _)
  | changed _ _ _ _ _ news isNews =>
    refine ordersTo_aside (fun note hnote => ?_) i
    obtain ⟨e, he, rfl⟩ := List.mem_map.mp hnote
    exact news_isAside (isNews e he)
  | _ => exact ordersTo_aside (by simp [Note.IsAside]) i

/-- A machine that is asked for something is counted, so none is asked where the counts stay. -/
theorem Path.ordersTo_of_unasked (h : Path s new t)
    (hstarted : t.tally.started = s.tally.started) (hsteps : t.tally.steps = s.tally.steps)
    (i : Nat) : ordersTo i new = [] := by
  induction h with
  | refl => rfl
  | change hpath hchange ih =>
    have hfirst := hpath.asked_le
    have hlast := hchange.asked_le
    rw [ordersTo_append, ih (by omega) (by omega),
      hchange.ordersTo_of_unasked (by omega) (by omega)]
    rfl

end Asked

theorem Change.made {s t : Session μ σ ε} {new : List Note} (h : Change s new t)
    {serial index : Nat} {p : Program} {test : Case} (hmade : .made serial index p test ∈ new) :
    s.program = some p ∧ index = s.cursor.index ∧ s.cases[s.cursor.index]? = some test := by
  cases h with
  | started due | refused due =>
    simp only [launchNotes, List.mem_cons, Note.made.injEq, reduceCtorEq, or_false,
      List.not_mem_nil] at hmade
    obtain ⟨-, rfl, rfl, rfl⟩ := hmade
    exact ⟨due.program, rfl, due.test⟩
  | _ => simp at hmade

/-! ## The theorem -/

/-- Whatever is done to a session is a path of changes, and on every path the machines get proper
orders. -/
theorem machines_get_proper_orders (fresh : Nat → μ) (settings : Settings) (screen : σ)
    (editor : ε) :
    (∀ deeds, ∃ notes, Path (unloaded fresh settings screen editor) notes
        ((initial fresh settings screen editor).after deeds) ∧
      eventsOf notes = (initial fresh settings screen editor).told deeds) ∧
    (∀ notes s, Path (unloaded fresh settings screen editor) notes s →
      -- One machine is made for each case that is announced, and they are numbered in order.
      notes.filterMap Note.serial? = List.range s.tally.started ∧
      notes.filterMap Note.madeFor? = notes.filterMap Note.begun? ∧
      -- What is noted of a machine has been done to it, and these are all its orders.
      (∀ i index p test, .made i index p test ∈ notes →
        Proper p test (ordersTo i notes) ∧ ∃ m, Makes (fresh i) (ordersTo i notes) m) ∧
      (∀ m, s.machine = some m → Makes (fresh s.serial) (ordersTo s.serial notes) m) ∧
      Timely notes ∧
      -- The program and the case that a machine is made for are those of the session.
      ∀ t new, Change s new t → ∀ i index p test, .made i index p test ∈ new →
        s.program = some p ∧ index = s.cursor.index ∧ s.cases[s.cursor.index]? = some test) ∧
    ∀ s : Session Walker σ ε, Reachable s →
      s.tally.faults = 0 ∧ (∀ o ∈ s.outcomes, o.fault = none) ∧ s.tally.steps = s.tally.moves := by
  refine ⟨path_after_initial fresh settings screen editor, fun notes s hpath => ?_, fun s hs => ?_⟩
  · obtain ⟨hkept, rfl⟩ := kept_of_path hpath
    have hrecords := hkept.records
    refine ⟨hrecords.serials, hrecords.cases, hrecords.orders, ?_, hrecords.timely, ?_⟩
    · exact fun m hm => (hkept.inHand m hm).makes
    · exact fun t new hchange i index p test hmade => hchange.made hmade
  · have h := hs.faultless
    exact ⟨h.faults, h.outcomes, h.steps⟩

theorem machines_get_proper_orders_in_a_move :
    let fresh : Nat → Walker := fun _ => {}
    let screen : HeldScreen := { layout := ⟨0, 0, 1⟩ }
    let editor : EditorSwitch := { on := true }
    let s := (initial fresh {} screen editor).after [.call .play, .call .tick]
    s.tally.faults = 0 ∧ s.tally.moves = 1 ∧ ∃ notes,
      Path (unloaded fresh {} screen editor) notes s ∧
        notes.filterMap Note.serial? = List.range 1 ∧ Timely notes := by
  intro fresh screen editor s
  obtain ⟨hpath, hnotes, hwalkers⟩ := machines_get_proper_orders fresh {} screen editor
  have hs : Reachable s := .call .tick (.call .play (.initial ..))
  obtain ⟨hfaults, -, hsteps⟩ := hwalkers s hs
  obtain ⟨notes, hpath, -⟩ := hpath [.call .play, .call .tick]
  obtain ⟨hserials, -, -, -, htimely, -⟩ := hnotes notes s hpath
  have hstep : s.tally.steps = 1 := by decide
  exact ⟨hfaults, hsteps.symm.trans hstep, notes, hpath, hserials, htimely⟩

end Session

end Tilewalk
