import Tilewalk.Proofs.Machine.Halting
import Tilewalk.Proofs.Machine.Steps

/-! # A limit only cuts off

Up to its limit a walker does what it does without one. If the token would still move on then, the
walker halts where it is.
-/

namespace Tilewalk.Walker

variable {p : Program} {limit : UInt32} {w v : Walker} {n : Nat}

/-! ## Halting, counted in steps -/

theorem haltsAfter_succ_iff (hon : w.IsOn p limit) (hruns : w.isRunning = true) :
    HaltsAfter (n + 1) w v ↔ (afterSteps w n).isRunning = true ∧
      (afterSteps w (n + 1)).isRunning = false ∧ v = afterSteps w (n + 1) := by
  have hstep := step_running hon hruns
  induction n generalizing w with
  | zero =>
    rw [show afterSteps w 0 = w from rfl, afterSteps_succ_running (n := 0) hon hruns]
    show _ ↔ _ ∧ (w.move p).isRunning = false ∧ v = w.move p
    cases hmoved : (w.move p).isRunning with
    | true =>
      rw [haltsAfter_iff_of_running hstep hmoved]
      constructor
      · rintro ⟨j, hj, hhalts⟩
        have := hhalts.pos
        omega
      · simp
    | false =>
      rw [haltsAfter_iff_of_halted hstep hmoved]
      simp [hruns]
  | succ n ih =>
    have hnext : ∀ k, afterSteps w (k + 1) = afterSteps (w.move p) k := by
      intro k
      unfold afterSteps
      rw [Function.iterate_succ_apply, hstep]
    rw [hnext, hnext]
    have hon' := (moves_move p w).isOn hon
    cases hmoved : (w.move p).isRunning with
    | true =>
      have hmore := ih hon' hmoved (step_running hon' hmoved)
      rw [haltsAfter_iff_of_running hstep hmoved]
      refine Iff.trans ?_ hmore
      simp
    | false =>
      rw [haltsAfter_iff_of_halted hstep hmoved]
      have hrest : afterSteps (w.move p) n = w.move p :=
        afterSteps_of_halted (m := 0) hon' hmoved n.zero_le
      simp [hrest, hmoved]

theorem steps_afterSteps_succ (hon : w.IsOn p limit) (hfirst : w.steps = 0)
    (hruns : (afterSteps w n).isRunning = true) :
    (afterSteps w (n + 1)).steps = min (n + 1) maxSteps := by
  induction n with
  | zero =>
    rw [afterSteps_succ_running hon hruns, (moves_move p _).steps]
    show min (w.steps + 1) maxSteps = _
    rw [hfirst]
  | succ n ih =>
    rw [afterSteps_succ_running hon hruns, (moves_move p _).steps,
      ih (running_of_le hon hruns n.le_succ)]
    omega

/-! ## One move under a limit -/

/-- The limit plays no part in a move but for the check at its end. -/
theorem move_under (hfree : w.limit = 0) (hruns : w.isRunning = true) (limit : UInt32) :
    ({ w with limit } : Walker).move p =
      if (w.move p).isRunning then ({ w.move p with limit } : Walker).checkLimit
      else { w.move p with limit } := by
  have hmoves := moves_move p w
  generalize w.move p = v at hmoves ⊢
  cases hmoves with
  | stuck hexit => exact Moves.move_eq (w := { w with limit }) (.stuck hexit)
  | blocked hexit hending =>
    exact Moves.move_eq (w := { w with limit }) (.blocked hexit hending)
  | ended hexit hending hne =>
    exact Moves.move_eq (w := { w with limit }) (.ended hexit hending hne)
  | went hexit hending =>
    rw [Moves.move_eq (w := { w with limit }) (.went hexit hending)]
    simp [checkLimit, counted, hfree, hruns]

theorem checkLimit_of_lt (h : w.steps < w.limit.toNat) : w.checkLimit = w := by
  unfold checkLimit
  rw [if_neg (by omega)]

theorem checkLimit_of_le (hlimit : 0 < w.limit) (h : w.limit.toNat ≤ w.steps) :
    w.checkLimit = w.endBy .limit := by
  unfold checkLimit
  rw [if_pos ⟨hlimit, h⟩]

/-! ## With a limit and without -/

theorem toNat_le_maxSteps (limit : UInt32) : limit.toNat ≤ maxSteps :=
  Nat.le_of_lt_succ limit.toNat_lt

section SideBySide

variable {tape : Tape} {u b : Walker}

theorem afterSteps_under (hn : n ≤ limit.toNat)
    (hlast : n < limit.toNat ∨ (afterSteps (u.setOff p tape 0) n).isRunning = false) :
    afterSteps (b.setOff p tape limit) n = { afterSteps (u.setOff p tape 0) n with limit } := by
  have hfree := isOn_setOff u p tape 0
  have hbound := isOn_setOff b p tape limit
  induction n with
  | zero => rfl
  | succ n ih =>
    have hbefore := ih (by omega) (by omega)
    cases hruns : (afterSteps (u.setOff p tape 0) n).isRunning with
    | false =>
      have hhalted : (afterSteps (b.setOff p tape limit) n).isRunning = false := by
        rw [hbefore]
        exact hruns
      rw [afterSteps_succ_halted hfree hruns, afterSteps_succ_halted hbound hhalted, hbefore]
    | true =>
      have hruns' : (afterSteps (b.setOff p tape limit) n).isRunning = true := by
        rw [hbefore]
        exact hruns
      have hcount := steps_afterSteps_succ hfree rfl hruns
      have hmax := toNat_le_maxSteps limit
      rw [afterSteps_succ_running hfree hruns] at hlast hcount ⊢
      rw [afterSteps_succ_running hbound hruns', hbefore,
        move_under (isOn_afterSteps hfree n).limit hruns limit]
      split_ifs with hmoved
      · -- The token moves on, so this is not the last step that the limit allows.
        have hlt : n + 1 < limit.toNat := by simpa [hmoved] using hlast
        exact checkLimit_of_lt (by dsimp only; omega)
      · rfl

theorem afterSteps_at_limit (hlimit : 0 < limit)
    (hruns : (afterSteps (u.setOff p tape 0) limit.toNat).isRunning = true) :
    (afterSteps (u.setOff p tape 0) limit.toNat).steps = limit.toNat ∧
      afterSteps (b.setOff p tape limit) limit.toNat =
        { afterSteps (u.setOff p tape 0) limit.toNat with limit }.endBy .limit := by
  have hfree := isOn_setOff u p tape 0
  have hpos : 0 < limit.toNat := hlimit
  obtain ⟨k, hk⟩ : ∃ k, limit.toNat = k + 1 := ⟨limit.toNat - 1, by omega⟩
  rw [hk] at hruns ⊢
  have hruns' : (afterSteps (u.setOff p tape 0) k).isRunning = true :=
    running_of_le hfree hruns k.le_succ
  have hbefore : afterSteps (b.setOff p tape limit) k =
      { afterSteps (u.setOff p tape 0) k with limit } := afterSteps_under (by omega) (by omega)
  have hrunsBound : (afterSteps (b.setOff p tape limit) k).isRunning = true := by
    rw [hbefore]
    exact hruns'
  have hcount := steps_afterSteps_succ hfree rfl hruns'
  have hmax := toNat_le_maxSteps limit
  rw [afterSteps_succ_running hfree hruns'] at hruns hcount ⊢
  rw [afterSteps_succ_running (isOn_setOff b p tape limit) hrunsBound, hbefore,
    move_under (isOn_afterSteps hfree k).limit hruns' limit, if_pos hruns]
  exact ⟨by omega, checkLimit_of_le hlimit (by dsimp only; omega)⟩

theorem haltsAfter_under (hn : n ≤ limit.toNat) (h : HaltsAfter n (u.setOff p tape 0) v) :
    HaltsAfter n (b.setOff p tape limit) { v with limit } := by
  obtain ⟨k, rfl⟩ : ∃ k, n = k + 1 := ⟨n - 1, by have := h.pos; omega⟩
  obtain ⟨hruns, hhalted, rfl⟩ := (haltsAfter_succ_iff (isOn_setOff u p tape 0) rfl).mp h
  rw [haltsAfter_succ_iff (isOn_setOff b p tape limit) rfl, afterSteps_under (u := u) hn (.inr hhalted),
    afterSteps_under (u := u) (n := k) (by omega) (.inl hn)]
  exact ⟨hruns, hhalted, rfl⟩

/-- What does not halt in time is cut off by the limit. -/
theorem haltsAfter_limit (hlimit : 0 < limit)
    (hnever : ∀ k ≤ limit.toNat, ∀ v, ¬ HaltsAfter k (u.setOff p tape 0) v) :
    (afterSteps (u.setOff p tape 0) limit.toNat).steps = limit.toNat ∧
      HaltsAfter limit.toNat (b.setOff p tape limit)
        ({ afterSteps (u.setOff p tape 0) limit.toNat with limit }.endBy .limit) := by
  have hfree := isOn_setOff u p tape 0
  have hpos : 0 < limit.toNat := hlimit
  have hruns : (afterSteps (u.setOff p tape 0) limit.toNat).isRunning = true := by
    by_contra hhalted
    obtain ⟨m, hm, hruns, -, hlast⟩ := exists_last_move hfree rfl (Bool.not_eq_true _ ▸ hhalted)
    rw [hlast, Bool.not_eq_true] at hhalted
    exact hnever (m + 1) hm _ ((haltsAfter_succ_iff hfree rfl).mpr ⟨hruns, hhalted, rfl⟩)
  obtain ⟨hsteps, hcut⟩ := afterSteps_at_limit (b := b) hlimit hruns
  refine ⟨hsteps, ?_⟩
  obtain ⟨k, hk⟩ : ∃ k, limit.toNat = k + 1 := ⟨limit.toNat - 1, by omega⟩
  rw [hk] at hruns hcut ⊢
  rw [haltsAfter_succ_iff (isOn_setOff b p tape limit) rfl, hcut,
    afterSteps_under (u := u) (n := k) (by omega) (by omega)]
  exact ⟨running_of_le hfree hruns k.le_succ, rfl, rfl⟩

end SideBySide

/-! ## The theorem -/

/-- A walker under a limit and one without do the same for fewer steps than the limit allows, and
halt together if the free one halts in time. Otherwise the limit ends the walk after just as many
steps as it allows. So what is accepted under a limit is accepted under any that is larger. -/
theorem limit_only_cuts_off (p : Program) (tape : Tape) (u b : Walker) {limit : UInt32}
    (hlimit : 1 ≤ limit) :
    let free := u.setOff p tape 0
    let bound := b.setOff p tape limit
    let cut := { afterSteps free limit.toNat with
      limit, isRunning := false, ending := some .limit }
    (∀ n < limit.toNat, afterSteps bound n = { afterSteps free n with limit }) ∧
    (∀ k ≤ limit.toNat, ∀ v, HaltsAfter k free v → HaltsAfter k bound { v with limit }) ∧
    ((∀ k ≤ limit.toNat, ∀ v, ¬ HaltsAfter k free v) →
      HaltsAfter limit.toNat bound cut ∧ cut.steps = limit.toNat ∧ Machine.accepts cut = false) ∧
    (∃ k ≤ limit.toNat, ∃ v, HaltsAfter k bound v) ∧
    ∀ k v, HaltsAfter k bound v → Machine.accepts v = true →
      ∀ (more : UInt32) (w : Walker), limit < more ∨ more = 0 →
        ∃ v', HaltsAfter k (w.setOff p tape more) v' ∧ Machine.accepts v' = true ∧
          Machine.tape v' = Machine.tape v := by
  intro free bound cut
  have hlimit' : 0 < limit := hlimit
  refine ⟨?_, fun k hk v => haltsAfter_under hk, ?_, ?_, ?_⟩
  · exact fun n hn => afterSteps_under (Nat.le_of_lt hn) (.inl hn)
  · intro hnever
    obtain ⟨hsteps, hcut⟩ := haltsAfter_limit (b := b) hlimit' hnever
    exact ⟨hcut, hsteps, rfl⟩
  · by_cases hever : ∃ k ≤ limit.toNat, ∃ v, HaltsAfter k free v
    · obtain ⟨k, hk, v, hhalts⟩ := hever
      exact ⟨k, hk, _, haltsAfter_under hk hhalts⟩
    · push Not at hever
      exact ⟨_, Nat.le_refl _, _, (haltsAfter_limit hlimit' hever).2⟩
  · intro k v hhalts haccepts more w hmore
    by_cases hever : ∃ k ≤ limit.toNat, ∃ v, HaltsAfter k free v
    · obtain ⟨j, hj, v', hhalts'⟩ := hever
      obtain ⟨rfl, rfl⟩ := hhalts.unique (haltsAfter_under hj hhalts')
      rcases hmore with hmore | rfl
      · have hle := Nat.le_trans hj (Nat.le_of_lt (UInt32.lt_iff_toNat_lt.mp hmore))
        exact ⟨_, haltsAfter_under hle hhalts', haccepts, rfl⟩
      · exact ⟨v', hhalts', haccepts, rfl⟩
    · push Not at hever
      obtain ⟨-, rfl⟩ := hhalts.unique (haltsAfter_limit hlimit' hever).2
      cases haccepts

/-- Three cells one below the other, and a conveyor from the start to the goal. -/
def column : Program :=
  ⟨1, 3, (∅ : Cells).insert ⟨0, 1⟩ ⟨.conveyor, .identity⟩, Program.defaultStart 1,
    Program.defaultGoal 1 3⟩

theorem limit_only_cuts_off_on_a_column :
    let free := ({} : Walker).setOff column .empty 0
    HaltsAfter 2 (({} : Walker).setOff column .empty 2) { afterSteps free 2 with limit := 2 } ∧
    HaltsAfter 1 (({} : Walker).setOff column .empty 1)
      { afterSteps free 1 with limit := 1, isRunning := false, ending := some .limit } ∧
    ∃ v, HaltsAfter 2 (({} : Walker).setOff column .empty 3) v ∧ Machine.accepts v = true := by
  intro free
  have hfirst : Machine.step free = (afterSteps free 1, .ok ()) := rfl
  have hruns : Machine.isRunning (afterSteps free 1) = true := rfl
  have hsecond : Machine.step (afterSteps free 1) = (afterSteps free 2, .ok ()) := rfl
  have hhalts : HaltsAfter 2 free (afterSteps free 2) := .more hfirst hruns (.last hsecond rfl)
  have htwo : 1 ≤ (2 : UInt32) := by decide
  have hone : 1 ≤ (1 : UInt32) := by decide
  obtain ⟨-, hintime, -, -, haccepted⟩ := limit_only_cuts_off column .empty {} {} htwo
  obtain ⟨-, -, hcut, -⟩ := limit_only_cuts_off column .empty {} {} hone
  have hbound := hintime 2 (by decide) _ hhalts
  obtain ⟨v, hv, hvaccepts, -⟩ := haccepted 2 _ hbound rfl 3 {} (.inl (by decide))
  refine ⟨hbound, (hcut ?_).1, v, hv, hvaccepts⟩
  intro k hk v hk'
  obtain ⟨rfl, -⟩ := hk'.unique hhalts
  exact absurd hk (by decide)

end Tilewalk.Walker
