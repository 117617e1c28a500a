import Tilewalk.Proofs.Session.Changes

/-! # Tickets of a run

A run has one open ticket at most, the one that it waits for. Tickets that others have left open can
be settled at any time, and no run minds.
-/

namespace Tilewalk

variable {μ σ ε : Type}

/-- Whether a deed begins a run. -/
def Deed.begins : Deed σ → Session μ σ ε → Bool
  | .call .play, s => s.phase = .stopped ∧ s.program.isSome
  | _, _ => false

namespace Session

/-! ## What becomes of the ledger -/

/-- No ticket has been handed out, and no run has begun. -/
structure Calm (s t : Session μ σ ε) : Prop where
  issued : t.stage.ledger.issued = s.stage.ledger.issued
  pending : t.stage.ledger.pending ⊆ s.stage.ledger.pending
  awaited : t.awaited = s.awaited ∨ t.awaited = none
  inRun : t.phase ≠ .stopped → s.phase ≠ .stopped ∧ t.awaited = s.awaited

theorem Calm.of_eq {s t : Session μ σ ε} (hstage : t.stage = s.stage)
    (hawaited : t.awaited = s.awaited) (hphase : t.phase ≠ .stopped → s.phase ≠ .stopped) :
    Calm s t :=
  ⟨by rw [hstage], by rw [hstage]; exact List.Subset.refl _, .inl hawaited,
    fun ht => ⟨hphase ht, hawaited⟩⟩

theorem Calm.refl (s : Session μ σ ε) : Calm s s := .of_eq rfl rfl id

theorem Calm.trans {s t u : Session μ σ ε} (hst : Calm s t) (htu : Calm t u) : Calm s u where
  issued := htu.issued.trans hst.issued
  pending := List.Subset.trans htu.pending hst.pending
  awaited := by
    obtain hu | hu := htu.awaited
    · rw [hu]
      exact hst.awaited
    · exact .inr hu
  inRun hu := by
    obtain ⟨ht, htu'⟩ := htu.inRun hu
    obtain ⟨hs, hst'⟩ := hst.inRun ht
    exact ⟨hs, htu'.trans hst'⟩

theorem calm_act (s : Session μ σ ε) (action : σ → σ × List Ticket) :
    Calm s { s with stage := s.stage.act action } :=
  ⟨Stage.issued_act .., Stage.pending_act .., .inl rfl, fun h => ⟨h, rfl⟩⟩

theorem calm_pause (s : Session μ σ ε) : Calm s s.pause.1 := by
  unfold pause
  split_ifs with hp
  · exact .of_eq rfl rfl (by simp [hp])
  · exact .refl s

theorem calm_replaceCases (s : Session μ σ ε) (cases : List Case) :
    Calm s (s.replaceCases cases).1 := by
  unfold replaceCases
  split_ifs
  · exact .refl s
  · exact .of_eq rfl rfl id

section Levels

variable [Screen σ]

theorem calm_refresh (s : Session μ σ ε) : Calm s s.refresh := by
  unfold refresh
  split
  · exact calm_act s _
  · exact .refl s

theorem calm_install (s : Session μ σ ε) (content : LevelContent) : Calm s (s.install content) := by
  cases content with
  | level l =>
    have hset : Calm s
        { s with program := some l.program, title := some l.title, cases := l.cases } :=
      .of_eq rfl rfl id
    exact (hset.trans (calm_refresh _)).trans (.of_eq rfl rfl id)
  | program p =>
    have hset : Calm s { s with program := some p } := .of_eq rfl rfl id
    exact (hset.trans (calm_refresh _)).trans (.of_eq rfl rfl id)

theorem calm_load (s : Session μ σ ε) (text : String) : Calm s (s.load text).1 := by
  unfold load
  split_ifs
  · exact .refl s
  cases Level.extract text >>= Level.decode with
  | ok content => exact calm_install s content
  | error fault => exact .of_eq rfl rfl id

theorem calm_newGrid (s : Session μ σ ε) (cols rows : Nat) : Calm s (s.newGrid cols rows).1 := by
  unfold newGrid
  split_ifs
  · exact .refl s
  cases Program.blank cols rows with
  | error fault => exact .refl s
  | ok p =>
    have hset : Calm s { s with program := some p } := .of_eq rfl rfl id
    exact hset.trans (calm_refresh _)

theorem calm_edit {α : Type} (s : Session μ σ ε) (f : Program → Program × Except EditFault α) :
    Calm s (s.edit f).1 := by
  unfold edit
  split_ifs
  · exact .refl s
  cases s.program with
  | none => exact .refl s
  | some p =>
    rcases hf : f p with ⟨q, result⟩
    have hset : Calm s { s with program := some q } := .of_eq rfl rfl id
    cases result with
    | ok a => simpa only [hf] using hset.trans (calm_refresh _)
    | error fault => simpa only [hf] using hset

end Levels

section Runs

variable [Editor ε]

theorem calm_close (s : Session μ σ ε) : Calm s s.close where
  issued := rfl
  pending := List.Subset.refl _
  awaited := .inr rfl
  inRun h := absurd rfl h

theorem calm_stop (s : Session μ σ ε) : Calm s s.stop :=
  (calm_close s).trans (.of_eq rfl rfl id)

theorem calm_conclude (s : Session μ σ ε) (passed : Bool) : Calm s (s.conclude passed) := by
  by_cases h : passed = true ∧ s.cursor.index + 1 < s.cases.length
  · rw [conclude_next h.1 h.2]
    exact .of_eq rfl rfl id
  · rw [conclude_last h]
    have htold : Calm s (s.tell (.runFinished passed s.outcomes.length)) := .of_eq rfl rfl id
    exact htold.trans (calm_close _)

variable [Machine μ]

theorem calm_proceed (s : Session μ σ ε) : Calm s s.proceed := by
  unfold proceed
  split
  · split_ifs
    · exact .of_eq rfl rfl id
    · have hrecord (o : Outcome) : Calm s (s.record o) := .of_eq rfl rfl id
      exact (hrecord _).trans (calm_conclude _ _)
  · exact .refl s

theorem calm_breakOff (s : Session μ σ ε) (fault : MachineFault) : Calm s (s.breakOff fault) := by
  have hfailed : Calm s
      { s with tally := { s.tally with faults := s.tally.faults + 1 }, fault := some fault } :=
    .of_eq rfl rfl id
  exact hfailed.trans (calm_proceed _)

variable [Screen σ]

omit [Editor ε] in
theorem calm_showToken (s : Session μ σ ε) (m : μ) : Calm s (s.showToken m) := calm_act s _

theorem calm_beginCase (s : Session μ σ ε) : Calm s s.beginCase := by
  cases hp : s.program with
  | none =>
    rw [beginCase_nothing (.inl hp)]
    exact calm_close s
  | some p =>
    cases ht : s.cases[s.cursor.index]? with
    | none =>
      rw [beginCase_nothing (.inr ht)]
      exact calm_close s
    | some test =>
      have hbound (m : μ) : Calm s (s.onMachine m test) := .of_eq rfl rfl id
      rcases hl : launch (s.fresh s.tally.started) p test with ⟨m, ⟨fault⟩ | ⟨⟨⟩⟩⟩
      · rw [beginCase_failed hp ht hl]
        exact (hbound m).trans (calm_breakOff _ fault)
      · rw [beginCase_started hp ht hl]
        exact ((hbound m).trans (calm_showToken _ m)).trans (.of_eq rfl rfl id)

/-! ## What a deed does with tickets -/

/-- What a deed of an orderly session does with tickets. -/
inductive Handling (s : Session μ σ ε) : Deed σ → Session μ σ ε → Prop where
  | calm {deed : Deed σ} {t : Session μ σ ε} (same : deed.begins s = false) :
      Calm s t → Handling s deed t
  | opened {t : Session μ σ ε} (begins : Deed.begins (.call .play) s = true)
      (awaited : s.awaited = none) : Calm s.openRun t → Handling s (.call .play) t
  | landed {u : Ticket} {t : Session μ σ ε} (awaited : s.awaited = some u)
      (settled : u ∉ s.stage.ledger.pending) : Calm { s with awaited := none } t →
      Handling s (.call .tick) t
  | moved {t : Session μ σ ε} (stage : Stage σ) (target : Point) (fill : Fill) (length : Duration)
      (active : s.phase ≠ .stopped) (awaited : s.awaited = none)
      (issued : stage.ledger.issued = s.stage.ledger.issued)
      (pending : stage.ledger.pending ⊆ s.stage.ledger.pending)
      (glide : t.stage = stage.glide target fill length)
      (awaits : t.awaited = some stage.ledger.next) : Handling s (.call .tick) t

theorem handling_play {s : Session μ σ ε} (h : Orderly s) : Handling s (.call .play) s.play.1 := by
  cases hp : s.phase with
  | running =>
    simp only [play, hp]
    exact .calm (by simp [Deed.begins, hp]) (.refl s)
  | paused =>
    simp only [play, hp]
    exact .calm (by simp [Deed.begins, hp]) (.of_eq rfl rfl (by simp [hp]))
  | stopped =>
    by_cases hprogram : s.program = none
    · rw [play_without_program hp hprogram]
      exact .calm (by simp [Deed.begins, hprogram]) (.refl s)
    · rw [play_stopped hp hprogram]
      refine .opened ?_ (h.atRest hp).awaited (calm_beginCase s.openRun)
      simp [Deed.begins, hp, Option.isSome_iff_ne_none, hprogram]

theorem handling_tick {s : Session μ σ ε} (h : Orderly s) : Handling s (.call .tick) s.tick.1 := by
  have htick := h.tickOf
  generalize s.tick = r at htick ⊢
  cases htick with
  | idle | waiting | parked => exact .calm rfl (.refl s)
  | moved u awaited settled => exact .landed awaited settled (calm_proceed _)
  | begun =>
    have hturned : Calm s { s with tasks := [] } := .of_eq rfl rfl id
    exact .calm rfl (hturned.trans (calm_beginCase _))
  | stepped running tasks midway =>
    obtain ⟨m, hm⟩ := Option.isSome_iff_exists.mp midway.onCase.1
    have hturned : Calm s { s with tasks := [] } := .of_eq rfl rfl id
    have hshown : Calm s ({ s with tasks := [] }.showToken m) := hturned.trans (calm_showToken _ m)
    rcases hs : Machine.step m with ⟨m', ⟨fault⟩ | ⟨⟨⟩⟩⟩
    · rw [takeStep_failed hm hs]
      have hstepped : Calm s (({ s with tasks := [] }.showToken m).afterStep m') :=
        hshown.trans (.of_eq rfl rfl id)
      exact .calm rfl (hstepped.trans (calm_breakOff _ fault))
    · rw [takeStep_moved hm hs]
      exact .moved _ _ _ _ midway.active midway.awaited hshown.issued hshown.pending rfl rfl

theorem handling {s : Session μ σ ε} (h : Orderly s) (deed : Deed σ) :
    Handling s deed (deed.run s) := by
  cases deed with
  | screen action => exact .calm rfl (calm_act s action)
  | call c =>
    cases c with
    | play => exact handling_play h
    | tick => exact handling_tick h
    | pause => exact .calm rfl (calm_pause s)
    | stop => exact .calm rfl (calm_stop s)
    | load text => exact .calm rfl (calm_load s text)
    | share => exact .calm rfl (.refl s)
    | newGrid cols rows => exact .calm rfl (calm_newGrid s cols rows)
    | edit f => exact .calm rfl (calm_edit s f)
    | replaceCases cases => exact .calm rfl (calm_replaceCases s cases)
    | takeEvents => exact .calm rfl (.of_eq rfl rfl id)

end Runs

/-! ## The tickets of the last run -/

/-- The number of the first ticket that a deed could hand out in the last run, when `first` is that
of the run before the deed. -/
def firstOf (first : Nat) (deed : Deed σ) (s : Session μ σ ε) : Nat :=
  if deed.begins s then s.stage.ledger.issued else first

/-- The tickets from `first` on are those of the run under way, or of the last one. A run has handed
out its tickets one after the other, and waits for the last one if it waits. -/
structure Numbered (first : Nat) (s : Session μ σ ε) : Prop where
  first_le : first ≤ s.stage.ledger.issued
  lt_issued : ∀ t ∈ s.stage.ledger.pending, t.serial < s.stage.ledger.issued
  awaited : ∀ t, s.awaited = some t → first ≤ t.serial ∧ t.serial + 1 = s.stage.ledger.issued
  inRun : s.phase ≠ .stopped → ∀ t ∈ s.stage.ledger.pending, first ≤ t.serial → s.awaited = some t

theorem Numbered.calm {first : Nat} {s t : Session μ σ ε} (h : Numbered first s)
    (hst : Calm s t) : Numbered first t := by
  constructor
  · rw [hst.issued]
    exact h.first_le
  · intro u hu
    rw [hst.issued]
    exact h.lt_issued u (hst.pending hu)
  · intro u hu
    rw [hst.issued]
    obtain hsame | hnone := hst.awaited
    · exact h.awaited u (hsame ▸ hu)
    · simp [hnone] at hu
  · intro ht u hu hfirst
    obtain ⟨hs, hawaited⟩ := hst.inRun ht
    rw [hawaited]
    exact h.inRun hs u (hst.pending hu) hfirst

theorem Numbered.landed {first : Nat} {s : Session μ σ ε} (h : Numbered first s) {u : Ticket}
    (hu : s.awaited = some u) (hsettled : u ∉ s.stage.ledger.pending) :
    Numbered first { s with awaited := none } := by
  refine ⟨h.first_le, h.lt_issued, by simp, fun hs v hv hfirst => ?_⟩
  obtain rfl : u = v := Option.some.inj (hu.symm.trans (h.inRun hs v hv hfirst))
  exact absurd hv hsettled

theorem Numbered.opened [Editor ε] {first : Nat} {s : Session μ σ ε} (h : Numbered first s)
    (hs : s.awaited = none) : Numbered s.stage.ledger.issued s.openRun := by
  refine ⟨Nat.le_refl _, h.lt_issued, by simp [openRun, hs], fun _ v hv hfirst => ?_⟩
  have hlt := h.lt_issued v hv
  omega

/-- A run that waits for nothing has no open ticket, so the one that it is handed is the only
one. -/
theorem Numbered.moved [Screen σ] {first : Nat} {s t : Session μ σ ε} (h : Numbered first s)
    {stage : Stage σ} {target : Point} {fill : Fill} {length : Duration}
    (hactive : s.phase ≠ .stopped) (hs : s.awaited = none)
    (hissued : stage.ledger.issued = s.stage.ledger.issued)
    (hpending : stage.ledger.pending ⊆ s.stage.ledger.pending)
    (ht : t.stage = stage.glide target fill length) (hawaits : t.awaited = some stage.ledger.next) :
    Numbered first t := by
  have hle := h.first_le
  have hmem (u : Ticket) (hu : u ∈ t.stage.ledger.pending) :
      u = stage.ledger.next ∨ u ∈ s.stage.ledger.pending := by
    rw [ht] at hu
    exact (List.mem_cons.mp (Stage.pending_glide _ _ _ _ hu)).imp_right (hpending ·)
  have hnext : t.stage.ledger.issued = s.stage.ledger.issued + 1 := by
    rw [ht, Stage.issued_glide, hissued]
  constructor
  · omega
  · intro u hu
    obtain rfl | hu := hmem u hu
    · simp [hnext, Ledger.next, hissued]
    · have := h.lt_issued u hu
      omega
  · intro u hu
    obtain rfl := Option.some.inj (hawaits.symm.trans hu)
    simp [hnext, Ledger.next, hissued, hle]
  · intro _ u hu hfirst
    obtain rfl | hu := hmem u hu
    · exact hawaits
    · have := h.inRun hactive u hu hfirst
      simp [hs] at this

variable [Machine μ] [Screen σ] [Editor ε]

/-- The number of the first ticket of the last run. -/
def firstTicket (first : Nat) : List (Deed σ) → Session μ σ ε → Nat
  | [], _ => first
  | deed :: deeds, s => firstTicket (firstOf first deed s) deeds (deed.run s)

theorem numbered_deed {first : Nat} {s : Session μ σ ε} (h : Numbered first s) (ho : Orderly s)
    (deed : Deed σ) : Numbered (firstOf first deed s) (deed.run s) := by
  have hhandling := handling ho deed
  generalize deed.run s = t at hhandling ⊢
  unfold firstOf
  cases hhandling with
  | calm same hcalm =>
    rw [same]
    exact h.calm hcalm
  | opened begins awaited hcalm =>
    rw [begins]
    exact (h.opened awaited).calm hcalm
  | landed awaited settled hcalm => exact (h.landed awaited settled).calm hcalm
  | moved stage target fill length active awaited issued pending glide awaits =>
    exact h.moved active awaited issued pending glide awaits

theorem numbered_after {first : Nat} {s : Session μ σ ε} (h : Numbered first s) (ho : Orderly s)
    (deeds : List (Deed σ)) : Numbered (s.firstTicket first deeds) (s.after deeds) := by
  induction deeds generalizing first s with
  | nil => exact h
  | cons deed deeds ih => exact ih (numbered_deed h ho deed) (orderly_deed ho deed)

/-! ## Settling a ticket that nobody waits for -/

section Settling

omit [Machine μ] [Screen σ] [Editor ε]

/-- The session when a ticket has been settled, whoever has done that. -/
def settling (u : Ticket) (s : Session μ σ ε) : Session μ σ ε :=
  { s with stage := s.stage.settle u }

variable (u : Ticket) (s : Session μ σ ε)

theorem phase_settling : (s.settling u).phase = s.phase := rfl

theorem pause_settling : (s.settling u).pause = (s.pause.1.settling u, s.pause.2) := by
  unfold pause
  rw [phase_settling]
  split_ifs <;> rfl

theorem replaceCases_settling (cases : List Case) : (s.settling u).replaceCases cases =
    ((s.replaceCases cases).1.settling u, (s.replaceCases cases).2) := by
  unfold replaceCases
  rw [phase_settling]
  split_ifs <;> rfl

section Levels

variable [Screen σ]

theorem refresh_settling : (s.settling u).refresh = s.refresh.settling u := by
  cases hp : s.program with
  | none => simp only [refresh, settling, hp]
  | some p =>
    rw [refresh_some hp, refresh_some (s := s.settling u) hp]
    simp only [settling, Stage.refresh, Stage.settle_act]

theorem install_settling (content : LevelContent) :
    (s.settling u).install content = (s.install content).settling u := by
  cases content with
  | level l =>
    have hshown := refresh_settling u
      { s with program := some l.program, title := some l.title, cases := l.cases }
    exact congrArg (tell · (.levelLoaded (some l.title))) hshown
  | program p =>
    have hshown := refresh_settling u { s with program := some p }
    exact congrArg (tell · (.levelLoaded none)) hshown

theorem load_settling (text : String) : (s.settling u).load text =
    ((s.load text).1.settling u, (s.load text).2) := by
  unfold load
  rw [phase_settling]
  split_ifs
  · rfl
  cases Level.extract text >>= Level.decode with
  | ok content => exact Prod.ext (install_settling u s content) rfl
  | error fault => rfl

theorem newGrid_settling (cols rows : Nat) : (s.settling u).newGrid cols rows =
    ((s.newGrid cols rows).1.settling u, (s.newGrid cols rows).2) := by
  unfold newGrid
  rw [phase_settling]
  split_ifs
  · rfl
  cases Program.blank cols rows with
  | ok p => exact Prod.ext (refresh_settling u { s with program := some p }) rfl
  | error fault => rfl

theorem edit_settling {α : Type} (f : Program → Program × Except EditFault α) :
    (s.settling u).edit f = ((s.edit f).1.settling u, (s.edit f).2) := by
  unfold edit
  rw [phase_settling, show (s.settling u).program = s.program from rfl]
  split_ifs
  · rfl
  cases s.program with
  | none => rfl
  | some p =>
    rcases hf : f p with ⟨q, ⟨fault⟩ | ⟨a⟩⟩
    · simp only [hf]
      rfl
    · simp only [hf]
      exact Prod.ext (refresh_settling u { s with program := some q }) rfl

end Levels

section Runs

variable [Editor ε]

theorem conclude_settling (passed : Bool) :
    (s.settling u).conclude passed = (s.conclude passed).settling u := by
  by_cases h : passed = true ∧ s.cursor.index + 1 < s.cases.length
  · rw [conclude_next h.1 h.2, conclude_next (s := s.settling u) h.1 h.2]
    rfl
  · rw [conclude_last h, conclude_last (s := s.settling u) h]
    rfl

variable [Machine μ]

theorem proceed_settling : (s.settling u).proceed = s.proceed.settling u := by
  cases hm : s.machine with
  | none => rw [proceed_nothing (.inl hm), proceed_nothing (s := s.settling u) (.inl hm)]
  | some m =>
    cases ht : s.cursor.test with
    | none => rw [proceed_nothing (.inr ht), proceed_nothing (s := s.settling u) (.inr ht)]
    | some test =>
      by_cases h : s.HasEnded m
      · rw [proceed_judged hm ht h, proceed_judged (s := s.settling u) hm ht h,
          ← conclude_settling]
        rfl
      · rw [proceed_more hm ht h, proceed_more (s := s.settling u) hm ht h]
        rfl

theorem breakOff_settling (fault : MachineFault) :
    (s.settling u).breakOff fault = (s.breakOff fault).settling u :=
  proceed_settling u (s.failed fault)

variable [Screen σ]

omit [Editor ε] in
theorem showToken_settling (m : μ) :
    (s.settling u).showToken m = (s.showToken m).settling u := by
  simp only [showToken, settling, Stage.put, ← Stage.settle_act]
  rfl

theorem beginCase_settling : (s.settling u).beginCase = s.beginCase.settling u := by
  cases hp : s.program with
  | none =>
    rw [beginCase_nothing (.inl hp), beginCase_nothing (s := s.settling u) (.inl hp)]
    rfl
  | some p =>
    cases ht : s.cases[s.cursor.index]? with
    | none =>
      rw [beginCase_nothing (.inr ht), beginCase_nothing (s := s.settling u) (.inr ht)]
      rfl
    | some test =>
      rcases hl : launch (s.fresh s.tally.started) p test with ⟨m, ⟨fault⟩ | ⟨⟨⟩⟩⟩
      · rw [beginCase_failed hp ht hl, beginCase_failed (s := s.settling u) hp ht hl]
        exact breakOff_settling u (s.onMachine m test) fault
      · rw [beginCase_started hp ht hl, beginCase_started (s := s.settling u) hp ht hl]
        exact congrArg (enqueue · .step) (showToken_settling u (s.onMachine m test) m)

theorem play_settling : (s.settling u).play = (s.play.1.settling u, s.play.2) := by
  cases hp : s.phase with
  | running => simp only [play, phase_settling, hp]
  | paused =>
    simp only [play, phase_settling, hp]
    rfl
  | stopped =>
    by_cases hprogram : s.program = none
    · rw [play_without_program hp hprogram, play_without_program (s := s.settling u) hp hprogram]
    · rw [play_stopped hp hprogram, play_stopped (s := s.settling u) hp hprogram]
      exact Prod.ext (beginCase_settling u s.openRun) rfl

variable {u s}

omit [Editor ε] in
theorem moveToken_settling (h : s.stage.ledger.next ≠ u) (m : μ) :
    (s.settling u).moveToken m = (s.moveToken m).settling u := by
  simp only [moveToken, settling, ← Stage.settle_glide h]
  rfl

theorem takeStep_settling (h : s.stage.ledger.next ≠ u) :
    (s.settling u).takeStep = s.takeStep.settling u := by
  cases hm : s.machine with
  | none => rw [takeStep_nothing hm, takeStep_nothing (s := s.settling u) hm]
  | some m =>
    rcases hs : Machine.step m with ⟨m', ⟨fault⟩ | ⟨⟨⟩⟩⟩
    · rw [takeStep_failed hm hs, takeStep_failed (s := s.settling u) hm hs, showToken_settling]
      exact breakOff_settling u ((s.showToken m).afterStep m') fault
    · rw [takeStep_moved hm hs, takeStep_moved (s := s.settling u) hm hs, showToken_settling]
      have hnext : ((s.showToken m).afterStep m').stage.ledger.next ≠ u := by
        simpa [Ledger.next, afterStep, showToken, Stage.put] using h
      exact moveToken_settling hnext m'

end Runs

end Settling

/-- A ticket that has been handed out, and that the session does not wait for. -/
structure Stale (u : Ticket) (s : Session μ σ ε) : Prop where
  issued : u.serial < s.stage.ledger.issued
  awaited : s.awaited ≠ some u

omit [Machine μ] [Screen σ] [Editor ε] in
theorem Stale.next {u : Ticket} {s : Session μ σ ε} (h : Stale u s) : s.stage.ledger.next ≠ u := by
  rintro rfl
  exact Nat.lt_irrefl _ h.issued

omit [Machine μ] [Screen σ] [Editor ε] in
theorem Stale.isSettled {u v : Ticket} {s : Session μ σ ε} (h : Stale u s)
    (hv : s.awaited = some v) :
    (s.settling u).stage.ledger.isSettled v = s.stage.ledger.isSettled v := by
  have hne : v ≠ u := by
    rintro rfl
    exact h.awaited hv
  simp [Ledger.isSettled, settling, Stage.settle, Ledger.settle, hne]

theorem tick_settling {u : Ticket} {s : Session μ σ ε} (h : Stale u s) :
    (s.settling u).tick = (s.tick.1.settling u, s.tick.2) := by
  cases hawaited : s.awaited with
  | some v =>
    have hsame := h.isSettled hawaited
    cases hsettled : s.stage.ledger.isSettled v with
    | false =>
      rw [hsettled] at hsame
      rw [tick_waiting hawaited hsettled, tick_waiting (s := s.settling u) hawaited hsame]
    | true =>
      rw [hsettled] at hsame
      rw [tick_settled hawaited hsettled, tick_settled (s := s.settling u) hawaited hsame]
      exact Prod.ext (proceed_settling u { s with awaited := none }) rfl
  | none =>
    rcases htasks : s.tasks with _ | ⟨task, tasks⟩
    · rw [tick_idle hawaited htasks, tick_idle (s := s.settling u) hawaited htasks]
    by_cases hp : s.phase = .stopped
    · rw [tick_stale hawaited htasks hp, tick_stale (s := s.settling u) hawaited htasks hp]
      rfl
    cases task with
    | nextCase =>
      rw [tick_nextCase hawaited htasks hp, tick_nextCase (s := s.settling u) hawaited htasks hp]
      exact Prod.ext (beginCase_settling u { s with tasks }) rfl
    | step =>
      cases hp' : s.phase with
      | stopped => exact absurd hp' hp
      | paused =>
        rw [tick_parked hawaited htasks hp', tick_parked (s := s.settling u) hawaited htasks hp']
      | running =>
        rw [tick_step hawaited htasks hp', tick_step (s := s.settling u) hawaited htasks hp']
        exact Prod.ext (takeStep_settling (s := { s with tasks }) h.next) rfl

theorem run_settling {u : Ticket} {s : Session μ σ ε} (h : Stale u s) (c : Call) :
    c.run (s.settling u) = ((c.run s).1.settling u, (c.run s).2) := by
  cases c with
  | play => exact play_settling u s
  | pause => exact pause_settling u s
  | tick => exact tick_settling h
  | load text => exact load_settling u s text
  | newGrid cols rows => exact newGrid_settling u s cols rows
  | edit f => exact edit_settling u s f
  | replaceCases cases => exact replaceCases_settling u s cases
  | stop | share | takeEvents => rfl

omit [Machine μ] [Screen σ] [Editor ε] in
theorem Stale.calm {u : Ticket} {s t : Session μ σ ε} (h : Stale u s) (hst : Calm s t) :
    Stale u t := by
  refine ⟨hst.issued.symm ▸ h.issued, ?_⟩
  obtain hsame | hnone := hst.awaited
  · rw [hsame]
    exact h.awaited
  · simp [hnone]

/-- A stale ticket stays so, since each move gets a new one. -/
theorem stale_deed {u : Ticket} {s : Session μ σ ε} (h : Stale u s) (ho : Orderly s)
    (deed : Deed σ) : Stale u (deed.run s) := by
  have hhandling := handling ho deed
  generalize deed.run s = t at hhandling ⊢
  cases hhandling with
  | calm _ hcalm => exact h.calm hcalm
  | opened begins awaited hcalm =>
    have hopened : Stale u s.openRun := ⟨h.issued, h.awaited⟩
    exact hopened.calm hcalm
  | landed awaited settled hcalm =>
    have hlanded : Stale u { s with awaited := none } := ⟨h.issued, by simp⟩
    exact hlanded.calm hcalm
  | moved stage target fill length active awaited issued pending glide awaits =>
    have hserial := h.issued
    refine ⟨?_, ?_⟩
    · rw [glide, Stage.issued_glide]
      omega
    · rw [awaits]
      rintro heq
      obtain rfl := Option.some.inj heq
      simp [Ledger.next, issued] at hserial

theorem log_settling {u : Ticket} {s : Session μ σ ε} (h : Stale u s) (ho : Orderly s)
    (deeds : List (Deed σ)) : (s.settling u).log deeds = s.log deeds ∧
      (s.settling u).after deeds = (s.after deeds).settling u := by
  induction deeds generalizing s with
  | nil => exact ⟨rfl, rfl⟩
  | cons deed deeds ih =>
    obtain ⟨hlog, hafter⟩ := ih (stale_deed h ho deed) (orderly_deed ho deed)
    cases deed with
    | screen action =>
      have hact : (s.settling u).onScreen action = (s.onScreen action).settling u := by
        simp only [onScreen, settling, Stage.settle_act]
      simp only [log, after_cons, Deed.run, hact]
      exact ⟨hlog, hafter⟩
    | call c =>
      simp only [log, after_cons, Deed.run, run_settling h c]
      exact ⟨congrArg _ hlog, hafter⟩

/-! ## The theorem -/

omit [Machine μ] in
theorem calm_initial (fresh : Nat → μ) (settings : Settings) (screen : σ) (editor : ε) :
    Calm (unloaded fresh settings screen editor) (initial fresh settings screen editor) := by
  let s := unloaded fresh settings screen editor
  have hload : Calm s s.loadInitial := by
    unfold loadInitial
    split
    · exact calm_load s _
    · exact .refl s
  refine hload.trans ?_
  show Calm _ s.loadInitial.orBlank
  unfold orBlank
  split
  · rename_i p _ _
    have hset : Calm s.loadInitial { s.loadInitial with program := some p } := .of_eq rfl rfl id
    exact hset.trans (calm_refresh _)
  · exact .refl _

omit [Machine μ] [Screen σ] in
theorem numbered_unloaded (fresh : Nat → μ) (settings : Settings) (screen : σ) (editor : ε) :
    Numbered 0 (unloaded fresh settings screen editor) :=
  ⟨Nat.zero_le _, by simp [unloaded], by simp [unloaded], by simp [unloaded]⟩

/-- A run hands out a ticket when all the tickets that it has handed out before are settled, and
then waits for that one. It goes on when that one has been settled. Settling any other ticket
changes the ledger only, whatever is done later. -/
theorem a_run_waits_for_its_own_move (fresh : Nat → μ) (settings : Settings) (screen : σ)
    (editor : ε) (deeds : List (Deed σ)) :
    let s := (initial fresh settings screen editor).after deeds
    let first := (initial fresh settings screen editor).firstTicket 0 deeds
    (∀ deed : Deed σ, (deed.run s).stage.ledger.issued = s.stage.ledger.issued ∨
      ∃ (stage : Stage σ) (target : Point) (fill : Fill) (length : Duration),
        deed = .call .tick ∧ (deed.run s).stage = stage.glide target fill length ∧
        (deed.run s).awaited = some stage.ledger.next ∧
        ∀ u : Ticket, first ≤ u.serial → u.serial < stage.ledger.issued →
          stage.ledger.isSettled u = true) ∧
    (s.phase ≠ .stopped → ∀ u ∈ s.stage.ledger.pending, first ≤ u.serial → s.awaited = some u) ∧
    (∀ u, s.awaited = some u → first ≤ u.serial ∧ u.serial + 1 = s.stage.ledger.issued ∧
      s.tick = if s.stage.ledger.isSettled u then ({ s with awaited := none }.proceed, .ran)
        else (s, .waiting)) ∧
    ∀ u, s.awaited ≠ some u → ∀ later : List (Deed σ),
      let settled := s.onScreen fun screen => (screen, [u])
      settled.log later = s.log later ∧
        ∃ ledger, settled.after later =
          { s.after later with stage := { (s.after later).stage with ledger } } := by
  intro s first
  have hstart := (atRest_initial fresh settings screen editor).orderly
  have hs : Orderly s := after_keeps (P := Orderly) (fun deed _ _ ho => orderly_deed ho deed) hstart
  have hnumbered : Numbered first s :=
    numbered_after ((numbered_unloaded ..).calm (calm_initial ..)) hstart deeds
  refine ⟨fun deed => ?_, hnumbered.inRun, fun u hu => ?_, fun u hu later => ?_⟩
  · have hhandling := handling hs deed
    generalize deed.run s = t at hhandling ⊢
    cases hhandling with
    | calm _ hcalm => exact .inl hcalm.issued
    | opened _ _ hcalm => exact .inl hcalm.issued
    | landed _ _ hcalm => exact .inl hcalm.issued
    | moved stage target fill length active awaited issued pending glide awaits =>
      refine .inr ⟨stage, target, fill, length, rfl, glide, awaits, fun u hfirst hlt => ?_⟩
      have hsettled : u ∉ stage.ledger.pending := by
        intro hu
        have hwaits := hnumbered.inRun active u (pending hu) hfirst
        simp [awaited] at hwaits
      simp [Ledger.isSettled, hlt, hsettled]
  · obtain ⟨hfirst, hlast⟩ := hnumbered.awaited u hu
    refine ⟨hfirst, hlast, ?_⟩
    split_ifs with hsettled
    · exact tick_settled hu hsettled
    · exact tick_waiting hu (eq_false_of_ne_true hsettled)
  · show (s.settling u).log later = s.log later ∧ _
    by_cases hissued : u.serial < s.stage.ledger.issued
    · obtain ⟨hlog, hafter⟩ := log_settling ⟨hissued, hu⟩ hs later
      exact ⟨hlog, _, hafter⟩
    · have hnone : u ∉ s.stage.ledger.pending := fun h => hissued (hnumbered.lt_issued u h)
      have hsame : s.settling u = s := by
        simp only [settling, Stage.settle, Ledger.settle_of_not_mem hnone]
      refine ⟨by rw [hsame], _, congrArg (after · later) hsame⟩

theorem a_run_waits_for_its_own_move_after_a_stop :
    let deeds : List (Deed HeldScreen) :=
      [.call .play, .call .tick, .call .stop, .call .play, .call .tick]
    let s := sample.after deeds
    let settled := s.onScreen fun screen => (screen, [⟨0⟩])
    s.awaited = some ⟨1⟩ ∧ s.stage.ledger.pending = [⟨1⟩, ⟨0⟩] ∧
      settled.stage.ledger.pending = [⟨1⟩] ∧
      settled.log [.call .tick] = s.log [.call .tick] := by
  intro deeds s settled
  have hawaited : s.awaited = some ⟨1⟩ := by decide
  obtain ⟨-, -, -, hsettle⟩ := a_run_waits_for_its_own_move (ScriptedMachine.nth []) {}
    ({ layout := ⟨0, 0, 1⟩ } : HeldScreen) ({ on := true } : EditorSwitch) deeds
  have hother : s.awaited ≠ some ⟨0⟩ := by simp [hawaited]
  exact ⟨hawaited, by decide, by decide, (hsettle ⟨0⟩ hother [.call .tick]).1⟩

end Session

end Tilewalk
