import Mathlib.Algebra.GroupWithZero.Nat
import Mathlib.Tactic.SplitIfs
import Tilewalk.Proofs.Stage
import Tilewalk.Screen.Clocked

/-! # Moves by the clock

Of the tickets that a screen with a clock has been handed, the only one that can be open is that of
the move under way. It is settled by the first cue that takes the place of the move or brings the
clock to its end.
-/

namespace Tilewalk

/-! ## Cues -/

/-- What a screen with a clock can be told to do. -/
inductive Cue where
  | put (target : Point) (fill : Fill)
  | glide (target : Point) (fill : Fill) (length : Duration)
  | elapse (time : Duration)

namespace Cue

def time : Cue → Duration
  | put .. | glide .. => 0
  | elapse time => time

/-- Whether a cue starts a move, under a ticket of its own. -/
def isGlide : Cue → Bool
  | glide .. => true
  | put .. | elapse _ => false

/-- Whether a cue after which the clock shows `clock` ends a move that is due at `due`. -/
def Ends (due clock : Duration) : Cue → Prop
  | put .. | glide .. => True
  | elapse _ => due ≤ clock

def run : Cue → Stage ClockedScreen → Stage ClockedScreen
  | put target fill, s => s.put target fill
  | glide target fill length, s => s.glide target fill length
  | elapse time, s => s.act (·.elapse time)

end Cue

namespace Stage

def perform (s : Stage ClockedScreen) (cues : List Cue) : Stage ClockedScreen :=
  cues.foldl (fun s cue => cue.run s) s

@[simp] theorem perform_nil (s : Stage ClockedScreen) : s.perform [] = s := rfl

@[simp] theorem perform_cons (s : Stage ClockedScreen) (cue : Cue) (cues : List Cue) :
    s.perform (cue :: cues) = (cue.run s).perform cues := rfl

end Stage

/-! ## Ledgers -/

namespace Ledger

theorem pending_settleAll (l : Ledger) (ts : List Ticket) :
    (l.settleAll ts).pending = l.pending.filter (· ∉ ts) := by
  induction ts generalizing l with
  | nil => exact (List.filter_eq_self.mpr (by simp)).symm
  | cons t ts ih =>
    rw [show l.settleAll (t :: ts) = (l.settle t).settleAll ts from rfl, ih]
    simp [settle, List.filter_filter, Bool.and_comm]

theorem settleAll_eq (l : Ledger) (ts : List Ticket) :
    l.settleAll ts = ⟨l.issued, l.pending.filter (· ∉ ts)⟩ := by
  rw [← issued_settleAll l ts, ← pending_settleAll]

theorem isSettled_issue {l : Ledger} {t : Ticket} (h : l.isSettled t = true) :
    l.issue.isSettled t = true := by
  simp only [isSettled, Bool.and_eq_true, decide_eq_true_eq] at h ⊢
  have hnext : t ≠ l.next := by
    rintro rfl
    exact Nat.lt_irrefl _ h.1
  exact ⟨Nat.lt_succ_of_lt h.1, by simp [issue, hnext, h.2]⟩

end Ledger

namespace ClockedScreen

variable {s : Stage ClockedScreen}

/-! ## Clocks and tickets -/

theorem now_run (cue : Cue) : (cue.run s).screen.now = s.screen.now + cue.time := by
  cases cue with
  | put target fill => rfl
  | glide target fill length =>
    simp only [Cue.run, Stage.glide, Stage.act, Screen.glide, glide]
    split_ifs <;> rfl
  | elapse time =>
    simp only [Cue.run, Stage.act, elapse]
    split
    · rfl
    · split_ifs <;> rfl

theorem now_perform (cues : List Cue) :
    (s.perform cues).screen.now = s.screen.now + (cues.map Cue.time).sum := by
  induction cues generalizing s with
  | nil => rfl
  | cons cue cues ih =>
    rw [Stage.perform_cons, ih, now_run, List.map_cons, List.sum_cons, Nat.add_assoc]

theorem issued_run (cue : Cue) :
    (cue.run s).ledger.issued = s.ledger.issued + if cue.isGlide then 1 else 0 := by
  cases cue <;> simp [Cue.run, Cue.isGlide, Stage.put]

theorem issued_perform (cues : List Cue) :
    (s.perform cues).ledger.issued = s.ledger.issued + cues.countP Cue.isGlide := by
  induction cues generalizing s with
  | nil => rfl
  | cons cue cues ih =>
    rw [Stage.perform_cons, ih, issued_run, List.countP_cons]
    omega

theorem isSettled_run {t : Ticket} (ht : s.ledger.isSettled t = true) (cue : Cue) :
    (cue.run s).ledger.isSettled t = true := by
  cases cue with
  | put | elapse => exact Stage.isSettled_act ht _
  | glide target fill length =>
    exact Stage.isSettled_act (s := { s with ledger := s.ledger.issue })
      (Ledger.isSettled_issue ht) _

theorem isSettled_perform {t : Ticket} (ht : s.ledger.isSettled t = true) (cues : List Cue) :
    (s.perform cues).ledger.isSettled t = true := by
  induction cues generalizing s with
  | nil => exact ht
  | cons cue cues ih => exact ih (isSettled_run ht cue)

/-! ## One cue -/

/-- The only ticket that is open is that of the move under way, which is not over. -/
structure InTime (s : Stage ClockedScreen) : Prop where
  pending : s.ledger.pending = s.screen.openTickets
  issued : ∀ m, s.screen.move = some m → m.ticket.serial < s.ledger.issued
  begun : ∀ m, s.screen.move = some m → m.begun ≤ s.screen.now
  unfinished : ∀ m, s.screen.move = some m → s.screen.now < m.begun + m.length

theorem run_elapse_of_still {time : Duration}
    (hstill : ∀ m, s.screen.move = some m → s.screen.now + time < m.begun + m.length) :
    (Cue.elapse time).run s = ⟨{ s.screen with now := s.screen.now + time }, s.ledger⟩ := by
  cases hm : s.screen.move with
  | none => simp [Cue.run, Stage.act, elapse, hm, Ledger.settleAll]
  | some m =>
    have hlate := Nat.not_le.mpr (hstill m hm)
    simp [Cue.run, Stage.act, elapse, hm, hlate, Ledger.settleAll]

theorem move_of_not_ends {m : Move} (hm : s.screen.move = some m) {cue : Cue}
    (hends : ¬ cue.Ends (m.begun + m.length) (cue.run s).screen.now) :
    (cue.run s).screen.move = some m := by
  cases cue with
  | put | glide => exact absurd trivial hends
  | elapse time =>
    rw [run_elapse_of_still]
    · exact hm
    · intro m' hm'
      obtain rfl : m = m' := Option.some.inj (hm.symm.trans hm')
      rw [now_run] at hends
      exact Nat.not_le.mp hends

theorem inTime_dark (layout : Layout) : InTime { screen := { layout } } :=
  ⟨rfl, by simp, by simp, by simp⟩

section InTime

variable (h : InTime s)

include h

theorem settleAll_openTickets :
    s.ledger.settleAll s.screen.openTickets = ⟨s.ledger.issued, []⟩ := by
  rw [Ledger.settleAll_eq, h.pending]
  simp

theorem ticket_ne_next {m : Move} (hm : s.screen.move = some m) : m.ticket ≠ s.ledger.next := by
  intro hnext
  have hissued := h.issued m hm
  rw [hnext] at hissued
  exact Nat.lt_irrefl _ hissued

theorem run_put (target : Point) (fill : Fill) : (Cue.put target fill).run s =
    ⟨{ s.screen with resting := target, fill, move := none }, ⟨s.ledger.issued, []⟩⟩ := by
  rw [← settleAll_openTickets h]
  rfl

theorem run_glide_zero (target : Point) (fill : Fill) : (Cue.glide target fill 0).run s =
    ⟨{ s.screen with resting := target, fill, move := none }, ⟨s.ledger.issued + 1, []⟩⟩ := by
  have hsettled : s.ledger.issue.settleAll (s.screen.openTickets ++ [s.ledger.next]) =
      ⟨s.ledger.issued + 1, []⟩ := by
    rw [Ledger.settleAll_eq]
    simp +contextual [Ledger.issue, h.pending]
  rw [← hsettled]
  rfl

theorem run_glide {length : Duration} (hlength : length ≠ 0) (target : Point) (fill : Fill) :
    (Cue.glide target fill length).run s =
      ⟨{ s.screen with
          fill
          move := some ⟨s.screen.resting, target, s.screen.now, length, s.ledger.next⟩ },
        ⟨s.ledger.issued + 1, [s.ledger.next]⟩⟩ := by
  have hnext : s.ledger.next ∉ s.screen.openTickets := by
    simpa [openTickets] using fun m hm => ticket_ne_next h hm
  have hsettled : s.ledger.issue.settleAll s.screen.openTickets =
      ⟨s.ledger.issued + 1, [s.ledger.next]⟩ := by
    rw [Ledger.settleAll_eq]
    simp [Ledger.issue, h.pending, hnext]
  rw [← hsettled]
  simp [Cue.run, Stage.glide, Stage.act, Screen.glide, glide, hlength]

theorem run_elapse_of_over {m : Move} (hm : s.screen.move = some m) {time : Duration}
    (hover : m.begun + m.length ≤ s.screen.now + time) : (Cue.elapse time).run s =
      ⟨{ s.screen with now := s.screen.now + time, resting := m.target, move := none },
        ⟨s.ledger.issued, []⟩⟩ := by
  rw [← settleAll_openTickets h]
  simp [Cue.run, Stage.act, elapse, hm, hover, openTickets]

theorem inTime_run (cue : Cue) : InTime (cue.run s) := by
  cases cue with
  | put target fill =>
    rw [run_put h]
    exact ⟨rfl, by simp, by simp, by simp⟩
  | glide target fill length =>
    by_cases hlength : length = 0
    · rw [hlength, run_glide_zero h]
      exact ⟨rfl, by simp, by simp, by simp⟩
    · rw [run_glide h hlength]
      have hpos := Nat.pos_of_ne_zero hlength
      exact ⟨rfl, by simp [Ledger.next], by simp, by simpa using hpos⟩
  | elapse time =>
    by_cases hover : ∃ m, s.screen.move = some m ∧ m.begun + m.length ≤ s.screen.now + time
    · obtain ⟨m, hm, hover⟩ := hover
      rw [run_elapse_of_over h hm hover]
      exact ⟨rfl, by simp, by simp, by simp⟩
    · have hstill : ∀ m, s.screen.move = some m → s.screen.now + time < m.begun + m.length :=
        fun m hm => Nat.not_le.mp fun hle => hover ⟨m, hm, hle⟩
      rw [run_elapse_of_still hstill]
      exact ⟨h.pending, h.issued, fun m hm => Nat.le_add_right_of_le (h.begun m hm), hstill⟩

theorem inTime_perform (cues : List Cue) : InTime (s.perform cues) := by
  induction cues generalizing s with
  | nil => exact h
  | cons cue cues ih => exact ih (inTime_run h cue)

/-- Of the tickets that have been handed out, only that of the move under way is open. -/
theorem isSettled_eq_false_iff {t : Ticket} (ht : t.serial < s.ledger.issued) :
    s.ledger.isSettled t = false ↔ ∃ m, s.screen.move = some m ∧ m.ticket = t := by
  simp [Ledger.isSettled, ht, h.pending, openTickets]

/-! ## The end of a move -/

theorem isSettled_of_ends {m : Move} (hm : s.screen.move = some m) {cue : Cue}
    (hends : cue.Ends (m.begun + m.length) (cue.run s).screen.now) :
    (cue.run s).ledger.isSettled m.ticket = true := by
  have hissued := h.issued m hm
  cases cue with
  | put target fill =>
    rw [run_put h]
    simp [Ledger.isSettled, hissued]
  | glide target fill length =>
    by_cases hlength : length = 0
    · rw [hlength, run_glide_zero h]
      simp [Ledger.isSettled, Nat.lt_succ_of_lt hissued]
    · rw [run_glide h hlength]
      simp [Ledger.isSettled, Nat.lt_succ_of_lt hissued, ticket_ne_next h hm]
  | elapse time =>
    rw [now_run] at hends
    have hover : m.begun + m.length ≤ s.screen.now + time := hends
    rw [run_elapse_of_over h hm hover]
    simp [Ledger.isSettled, hissued]

/-- The ticket of a move is settled by the first cue that ends it, and by nothing before that. -/
theorem isSettled_perform_iff {m : Move} (hm : s.screen.move = some m) (cues : List Cue) :
    (s.perform cues).ledger.isSettled m.ticket = true ↔
      ∃ first cue rest, cues = first ++ cue :: rest ∧
        cue.Ends (m.begun + m.length) (s.perform (first ++ [cue])).screen.now := by
  induction cues generalizing s with
  | nil =>
    have hopen := (isSettled_eq_false_iff h (h.issued m hm)).mpr ⟨m, hm, rfl⟩
    simp [hopen]
  | cons cue cues ih =>
    by_cases hends : cue.Ends (m.begun + m.length) (cue.run s).screen.now
    · have hsettled := isSettled_perform (isSettled_of_ends h hm hends) cues
      exact iff_of_true hsettled ⟨[], cue, cues, rfl, hends⟩
    · rw [Stage.perform_cons, ih (inTime_run h cue) (move_of_not_ends hm hends)]
      constructor
      · rintro ⟨first, last, rest, rfl, hlast⟩
        exact ⟨cue :: first, last, rest, rfl, hlast⟩
      · rintro ⟨_ | ⟨c, first⟩, last, rest, heq, hlast⟩
        · obtain ⟨rfl, rfl⟩ := List.cons.inj heq
          exact absurd hlast hends
        · obtain ⟨rfl, rfl⟩ := List.cons.inj heq
          exact ⟨first, last, rest, rfl, hlast⟩

theorem run_elapse_of_move {m : Move} (hm : s.screen.move = some m) (time : Duration) :
    let u := (Cue.elapse time).run s
    (u.screen.move = none ↔ m.begun + m.length ≤ s.screen.now + time) ∧
      (u.screen.move = none → u.screen.resting = m.target ∧ u.screen.token = m.target) := by
  by_cases hover : m.begun + m.length ≤ s.screen.now + time
  · rw [run_elapse_of_over h hm hover]
    simp [hover, token]
  · have hmoving : ((Cue.elapse time).run s).screen.move = some m :=
      move_of_not_ends hm (by rwa [now_run])
    simp [hmoving, hover]

theorem exists_move_of_glide {length : Duration} (hlength : length ≠ 0) (target : Point)
    (fill : Fill) : ∃ m, ((Cue.glide target fill length).run s).screen.move = some m ∧
      m.ticket = s.ledger.next ∧ m.target = target ∧ m.begun = s.screen.now ∧
      m.length = length := by
  rw [run_glide h hlength]
  exact ⟨_, rfl, rfl, rfl, rfl, rfl⟩

theorem run_elapse_add (a b : Duration) :
    (Cue.elapse (a + b)).run s = (Cue.elapse b).run ((Cue.elapse a).run s) := by
  by_cases hover : ∃ m, s.screen.move = some m ∧ m.begun + m.length ≤ s.screen.now + a
  · -- The move is over after the first part, and there is nothing to end in the second.
    obtain ⟨m, hm, hover⟩ := hover
    have hlater : m.begun + m.length ≤ s.screen.now + (a + b) :=
      Nat.le_trans hover (Nat.add_le_add_left (Nat.le_add_right a b) _)
    rw [run_elapse_of_over h hm hover, run_elapse_of_over h hm hlater,
      run_elapse_of_still (by simp), ← Nat.add_assoc]
  · have hstill : ∀ m, s.screen.move = some m → s.screen.now + a < m.begun + m.length :=
      fun m hm => Nat.not_le.mp fun hle => hover ⟨m, hm, hle⟩
    rw [run_elapse_of_still hstill]
    simp only [Cue.run, Stage.act, elapse, Nat.add_assoc]

end InTime

/-! ## The theorem -/

/-- Whatever a screen with a clock has been told to do, its clock shows all the time that has
passed, and a move under way is not over. Of the tickets handed out, one for each move, exactly that
of the move under way is open, and what is settled stays so. The ticket of a move that takes time is
settled by the first cue that replaces the move or brings the clock to its end, and that of any
other move at once. A move that ends by the clock leaves the token where it was to go. Whether the
clock is moved in one go or in two makes no difference to anything later. -/
theorem moves_end_in_time (layout : Layout) (cues : List Cue) :
    let s := ({ screen := { layout } } : Stage ClockedScreen).perform cues
    s.screen.now = (cues.map Cue.time).sum ∧
    (∀ m, s.screen.move = some m → m.ticket.serial < s.ledger.issued ∧
      m.begun ≤ s.screen.now ∧ s.screen.now < m.begun + m.length) ∧
    (s.ledger.issued = cues.countP Cue.isGlide ∧ ∀ t, t.serial < s.ledger.issued →
      (s.ledger.isSettled t = false ↔ ∃ m, s.screen.move = some m ∧ m.ticket = t)) ∧
    (∀ t more, s.ledger.isSettled t = true → (s.perform more).ledger.isSettled t = true) ∧
    (∀ target fill length more,
      let u := (Cue.glide target fill length).run s
      let t := s.ledger.next
      (length = 0 → u.ledger.isSettled t = true) ∧
      (length ≠ 0 → (∃ m, u.screen.move = some m ∧ m.ticket = t ∧ m.target = target) ∧
        ((u.perform more).ledger.isSettled t = true ↔
          ∃ first cue rest, more = first ++ cue :: rest ∧
            cue.Ends (s.screen.now + length) (u.perform (first ++ [cue])).screen.now))) ∧
    (∀ m time, s.screen.move = some m →
      let u := (Cue.elapse time).run s
      (u.screen.move = none ↔ m.begun + m.length ≤ s.screen.now + time) ∧
      (u.screen.move = none → u.screen.resting = m.target ∧ u.screen.token = m.target)) ∧
    ∀ a b more,
      s.perform (.elapse (a + b) :: more) = s.perform (.elapse a :: .elapse b :: more) := by
  intro s
  have h : InTime s := inTime_perform (inTime_dark layout) cues
  refine ⟨(now_perform cues).trans (Nat.zero_add _),
    fun m hm => ⟨h.issued m hm, h.begun m hm, h.unfinished m hm⟩,
    ⟨(issued_perform cues).trans (Nat.zero_add _), fun t => isSettled_eq_false_iff h⟩,
    fun t more ht => isSettled_perform ht more, fun target fill length more => ⟨?_, ?_⟩,
    fun m time hm => run_elapse_of_move h hm time, fun a b more => ?_⟩
  · rintro rfl
    rw [run_glide_zero h]
    simp [Ledger.isSettled, Ledger.next]
  · intro hlength
    obtain ⟨m, hm, hticket, htarget, hbegun, hlast⟩ := exists_move_of_glide h hlength target fill
    have hsettled := isSettled_perform_iff (inTime_run h _) hm more
    rw [hticket, hbegun, hlast] at hsettled
    exact ⟨⟨m, hm, hticket, htarget⟩, hsettled⟩
  · rw [Stage.perform_cons, run_elapse_add h]
    rfl

theorem moves_end_in_time_after_a_glide :
    let s := ({ screen := { layout := ⟨10, 20, 50⟩ } } : Stage ClockedScreen).perform
      [.put .origin "#E0E", .elapse 7, .glide ⟨100, 0⟩ "#36D" 400, .elapse 100]
    s.ledger.isSettled ⟨0⟩ = false ∧
      ((Cue.elapse 300).run s).screen.token = ⟨100, 0⟩ ∧
      (s.perform [.put .origin "#E0E", .elapse 1]).ledger.isSettled ⟨0⟩ = true := by
  intro s
  obtain ⟨-, hunder, ⟨-, hopen⟩, -, -, hends, -⟩ := moves_end_in_time ⟨10, 20, 50⟩
    [.put .origin "#E0E", .elapse 7, .glide ⟨100, 0⟩ "#36D" 400, .elapse 100]
  have hm : s.screen.move = some ⟨.origin, ⟨100, 0⟩, 7, 400, ⟨0⟩⟩ := rfl
  obtain ⟨hover, htarget⟩ := hends _ 300 hm
  refine ⟨(hopen _ (hunder _ hm).1).mpr ⟨_, hm, rfl⟩, (htarget (hover.mpr (by decide))).2, ?_⟩
  -- The ticket is settled by what replaces the move before its time.
  obtain ⟨-, -, -, -, hglide, -⟩ := moves_end_in_time ⟨10, 20, 50⟩ [.put .origin "#E0E", .elapse 7]
  obtain ⟨-, hlong⟩ := hglide ⟨100, 0⟩ "#36D" 400 [.elapse 100, .put .origin "#E0E", .elapse 1]
  exact (hlong (by decide)).2.mpr ⟨[.elapse 100], .put .origin "#E0E", [.elapse 1], rfl, trivial⟩

end ClockedScreen

end Tilewalk
