import Tilewalk.Proofs.Machine.Footing

/-! # What is read and written on the way

Over a walk the tape is a queue. Writers put their colours behind the input, and a branch takes a
colour from the front when it knows it, also one that was written on the way.
-/

namespace Tilewalk.Walker

variable {p : Program} {limit : UInt32} {w v : Walker}

/-- What the cell under the token writes when the token leaves it. -/
def writes (p : Program) (w : Walker) : List Colour :=
  ((p.tile? w.position).bind fun tile => tile.kind.written).toList

/-- The token is on a branch, and the head on one of the two colours of the branch. -/
def isReading (p : Program) (w : Walker) : Bool :=
  match (p.tile? w.position).bind fun tile => tile.kind.branchColours with
  | some (first, second) => w.tape.head = some first ∨ w.tape.head = some second
  | none => false

/-! ## One step -/

section Step

variable {tile : Tile} {first second : Colour} {heading : Heading} {tape : Tape}

theorem writes_of_tile (htile : p.tile? w.position = some tile) :
    w.writes p = tile.kind.written.toList := by
  unfold writes
  rw [htile]
  rfl

theorem isReading_of_branch (htile : p.tile? w.position = some tile)
    (hbranch : tile.kind.branchColours = some (first, second)) :
    w.isReading p = true ↔ w.tape.head = some first ∨ w.tape.head = some second := by
  unfold isReading
  rw [htile, Option.bind_some, hbranch]
  exact decide_eq_true_iff

theorem isReading_of_no_branch
    (h : ∀ tile, p.tile? w.position = some tile → tile.kind.branchColours = none) :
    w.isReading p = false := by
  unfold isReading
  cases htile : p.tile? w.position with
  | none => rfl
  | some tile => rw [Option.bind_some, h tile htile]

theorem written_of_branch {kind : Kind} (h : kind.branchColours = some (first, second)) :
    kind.written = none := by
  cases kind with
  | writer => cases h
  | conveyor | branchBlueRed | branchGreenYellow => rfl

/-- The start of a well-formed program has no tile, so a tile always has its way. -/
theorem exit?_of_tile (hp : p.WellFormed) (htile : p.tile? w.position = some tile) :
    exit? p w.position w.tape = some (tileExit tile w.tape) := by
  have hstart : w.position ≠ p.start.position := by
    intro heq
    rw [heq] at htile
    exact hp.freeStart (Program.mem_of_tile?_isSome (by rw [htile]; rfl))
  unfold exit?
  rw [if_neg hstart, htile]
  rfl

theorem tileExit_of_branch (hbranch : tile.kind.branchColours = some (first, second)) :
    tileExit tile tape = branchExit tile first second tape := by
  unfold tileExit
  rw [hbranch]

theorem tape_of_exit? (hp : p.WellFormed) (hexit : exit? p w.position w.tape = some (heading, tape)) :
    (w.isReading p = true ∧ w.writes p = [] ∧ tape = w.tape.advance) ∨
      (w.isReading p = false ∧ tape.unread = w.tape.unread ++ w.writes p ∧
        tape.consumed = w.tape.consumed) := by
  cases htile : p.tile? w.position with
  | none =>
    have hreads : w.isReading p = false := isReading_of_no_branch (by simp [htile])
    have hwrites : w.writes p = [] := by simp [writes, htile]
    have htape : tape = w.tape := by
      unfold exit? at hexit
      split_ifs at hexit
      · exact (Prod.mk.inj (Option.some.inj hexit)).2.symm
      · simp [htile] at hexit
    exact .inr ⟨hreads, by simp [htape, hwrites], by rw [htape]⟩
  | some tile =>
    rw [exit?_of_tile hp htile, Option.some.injEq] at hexit
    rw [writes_of_tile htile]
    cases hbranch : tile.kind.branchColours with
    | none =>
      have hreads : w.isReading p = false := isReading_of_no_branch (by simp [htile, hbranch])
      have htape : tape = w.tape.push tile.kind.written := by
        unfold tileExit at hexit
        rw [hbranch] at hexit
        exact (Prod.mk.inj hexit).2.symm
      refine .inr ⟨hreads, ?_, ?_⟩
      · rw [htape, Tape.unread_push]
      · rw [htape, Tape.consumed_push]
    | some colours =>
      obtain ⟨first, second⟩ := colours
      rw [written_of_branch hbranch]
      rw [tileExit_of_branch hbranch] at hexit
      unfold branchExit at hexit
      have hreads := isReading_of_branch htile hbranch
      split_ifs at hexit with hfirst hsecond
      · exact .inl ⟨hreads.mpr (.inl hfirst), rfl, (Prod.mk.inj hexit).2.symm⟩
      · exact .inl ⟨hreads.mpr (.inr hsecond), rfl, (Prod.mk.inj hexit).2.symm⟩
      · have hpasses : w.isReading p = false := by
          rw [← Bool.not_eq_true, hreads]
          exact not_or.mpr ⟨hfirst, hsecond⟩
        obtain rfl := (Prod.mk.inj hexit).2
        exact .inr ⟨hpasses, by simp, rfl⟩

theorem exit?_of_reading (hp : p.WellFormed) (hreads : w.isReading p = true)
    (hexit : exit? p w.position w.tape = some (heading, tape)) :
    ∃ tile first second colour, p.tile? w.position = some tile ∧
      tile.kind.branchColours = some (first, second) ∧ w.tape.head = some colour ∧
      ((colour = first ∧ heading = tile.exitOnFirst) ∨
        (colour = second ∧ heading = tile.exitOnSecond)) := by
  cases htile : p.tile? w.position with
  | none => simp [isReading, htile] at hreads
  | some tile =>
    cases hbranch : tile.kind.branchColours with
    | none => simp [isReading, htile, hbranch] at hreads
    | some colours =>
      obtain ⟨first, second⟩ := colours
      rw [exit?_of_tile hp htile, Option.some.injEq, tileExit_of_branch hbranch] at hexit
      unfold branchExit at hexit
      split_ifs at hexit with hfirst hsecond
      · exact ⟨tile, first, second, first, rfl, hbranch, hfirst,
          .inl ⟨rfl, (Prod.mk.inj hexit).1.symm⟩⟩
      · exact ⟨tile, first, second, second, rfl, hbranch, hsecond,
          .inr ⟨rfl, (Prod.mk.inj hexit).1.symm⟩⟩
      · exact absurd ((isReading_of_branch htile hbranch).mp hreads) (not_or.mpr ⟨hfirst, hsecond⟩)

/-- A token on the floor leaves its cell, and stays only where it would go over the edge. -/
theorem Moves.left (h : Moves p w v) (hfloor : p.IsFloor w.position) :
    ∃ heading, exit? p w.position w.tape = some (heading, v.tape) ∧
      v.position = if p.contains (w.position.neighbour heading) then w.position.neighbour heading
        else w.position := by
  cases h with
  | stuck hexit => exact absurd hexit (exit?_ne_none hfloor w.tape)
  | blocked hexit hnext =>
    refine ⟨_, hexit, ?_⟩
    rw [endingAt_eq_edge.mp hnext]
    rfl
  | ended hexit hnext hne =>
    refine ⟨_, hexit, ?_⟩
    rw [contains_of_endingAt (by rwa [hnext, Ne, Option.some.injEq])]
    rfl
  | went hexit hnext =>
    rw [tape_checkLimit, position_checkLimit]
    refine ⟨_, hexit, ?_⟩
    rw [contains_of_endingAt (by rw [hnext]; simp)]
    rfl

end Step

/-! ## Many steps -/

section Walk

variable (p w)

/-- What the first `n` steps of `w` write, in order. -/
def writtenIn (n : Nat) : List Colour := (List.range n).flatMap fun i => (afterSteps w i).writes p

/-- How many of the first `n` steps of `w` read. -/
def readsIn (n : Nat) : Nat := (List.range n).countP fun i => (afterSteps w i).isReading p

theorem writtenIn_succ (n : Nat) :
    writtenIn p w (n + 1) = writtenIn p w n ++ (afterSteps w n).writes p := by
  unfold writtenIn
  simp [List.range_succ]

theorem readsIn_succ (n : Nat) :
    readsIn p w (n + 1) = readsIn p w n + if (afterSteps w n).isReading p then 1 else 0 := by
  unfold readsIn
  simp [List.range_succ]

theorem writtenIn_mono {m n : Nat} (h : m ≤ n) : writtenIn p w m <+: writtenIn p w n := by
  induction h with
  | refl => exact List.prefix_rfl
  | step _ ih =>
    rw [writtenIn_succ]
    exact ih.trans (List.prefix_append ..)

end Walk

/-! ## The queue -/

/-- The tape of `w` is what is left of `tape` once `written` has been put behind it and `reads`
colours have been taken from the front. -/
structure Queued (tape : Tape) (written : List Colour) (reads : Nat) (w : Walker) : Prop where
  unread : w.tape.unread = (tape.unread ++ written).drop reads
  le : reads ≤ (tape.unread ++ written).length
  consumed : w.tape.consumed = tape.consumed + reads

section Queue

variable {tape : Tape} {written : List Colour} {reads n : Nat}

theorem Queued.head (h : Queued tape written reads w) :
    w.tape.head = (tape.unread ++ written)[reads]? := by
  rw [Tape.head_eq, h.unread, List.head?_drop]

theorem getElem?_of_later {later : List Colour} {colour : Colour} (h : written <+: later)
    (hnext : (tape.unread ++ written)[reads]? = some colour) :
    (tape.unread ++ later)[reads]? = some colour := by
  obtain ⟨rest, rfl⟩ := h
  have hlt := (List.getElem?_eq_some_iff.mp hnext).1
  rw [← List.append_assoc, List.getElem?_append_left hlt, hnext]

theorem head_of_isReading (h : w.isReading p = true) : ∃ colour, w.tape.head = some colour := by
  unfold isReading at h
  split at h
  · rcases of_decide_eq_true h with h | h
    · exact ⟨_, h⟩
    · exact ⟨_, h⟩
  · cases h

theorem Queued.step (hp : p.WellFormed) (h : Queued tape written reads w)
    (hfloor : p.IsFloor w.position) (hmoves : Moves p w v) :
    Queued tape (written ++ w.writes p) (reads + if w.isReading p then 1 else 0) v := by
  obtain ⟨heading, hexit, -⟩ := hmoves.left hfloor
  obtain ⟨hreads, hwrites, htape⟩ | ⟨hreads, hunread, hconsumed⟩ := tape_of_exit? hp hexit
  · obtain ⟨colour, hhead⟩ := head_of_isReading hreads
    have hlt : reads < (tape.unread ++ written).length := by
      rw [h.head] at hhead
      exact (List.getElem?_eq_some_iff.mp hhead).1
    have hmore : w.tape.isEmpty = false := by
      rw [Tape.head_eq] at hhead
      rw [Tape.isEmpty_eq, List.isEmpty_eq_false_iff]
      exact List.ne_nil_of_mem (List.mem_of_head? hhead)
    rw [hwrites, List.append_nil, if_pos hreads]
    refine ⟨?_, hlt, ?_⟩
    · rw [htape, Tape.unread_advance, h.unread, List.tail_drop]
    · rw [htape, Tape.consumed_advance, hmore, h.consumed]
      rfl
  · rw [if_neg (by simp [hreads]), Nat.add_zero]
    have hle := h.le
    refine ⟨?_, ?_, hconsumed.trans h.consumed⟩
    · rw [hunread, h.unread, ← List.append_assoc, List.drop_append_of_le_length hle]
    · simp only [List.length_append] at hle ⊢
      omega

theorem queued_afterSteps {u : Walker} (hp : p.WellFormed)
    (hruns : ∀ i < n, (afterSteps (u.setOff p tape limit) i).isRunning = true) :
    Queued tape (writtenIn p (u.setOff p tape limit) n) (readsIn p (u.setOff p tape limit) n)
      (afterSteps (u.setOff p tape limit) n) := by
  induction n with
  | zero =>
    have hunread : tape.unread = (tape.unread ++ []).drop 0 := by simp
    exact ⟨hunread, Nat.zero_le _, rfl⟩
  | succ n ih =>
    have hn := hruns n n.lt_succ_self
    have hfloor := (footing_afterSteps u p tape limit n).isFloor hn
    rw [writtenIn_succ, readsIn_succ]
    exact (ih fun i hi => hruns i (by omega)).step hp hfloor
      (moves_afterSteps (isOn_setOff u p tape limit) hn)

end Queue

/-! ## The theorem -/

/-- After steps that have succeeded, the tape is what they have written behind the input, without the
colours that branches have read from the front. A colour that is read is one of the branch that
reads it, and settles the way out. No step both reads and writes. -/
theorem tape_is_a_queue {p : Program} (hp : p.Reachable) (u : Walker) (tape : Tape)
    (limit : UInt32) {n : Nat}
    (hsteps : ∀ i < n, (Machine.step (afterSteps (u.setOff p tape limit) i)).2 = .ok ()) :
    let walk := afterSteps (u.setOff p tape limit)
    let written := (List.range n).flatMap fun i => (walk i).writes p
    let reads := fun k => (List.range k).countP fun i => (walk i).isReading p
    (walk n).tape.unread = (tape.unread ++ written).drop (reads n) ∧
    reads n ≤ (tape.unread ++ written).length ∧
    (walk n).tape.consumed = tape.consumed + reads n ∧
    (∀ i < n, (walk i).isReading p = true →
      ∃ tile first second colour heading, p.tile? (walk i).position = some tile ∧
        tile.kind.branchColours = some (first, second) ∧
        (tape.unread ++ written)[reads i]? = some colour ∧
        ((colour = first ∧ heading = if tile.orientation.isMirrored then
            tile.forward.counterclockwise else tile.forward.clockwise) ∨
          (colour = second ∧ heading = if tile.orientation.isMirrored then
            tile.forward.clockwise else tile.forward.counterclockwise)) ∧
        let next := (walk i).position.neighbour heading
        (walk (i + 1)).position = if p.contains next then next else (walk i).position) ∧
    ∀ i < n,
      ((walk i).isReading p = true ∧ (walk i).writes p = [] ∧
        (walk (i + 1)).tape = (walk i).tape.advance) ∨
      ((walk i).isReading p = false ∧
        (walk (i + 1)).tape.unread = (walk i).tape.unread ++ (walk i).writes p ∧
        (walk (i + 1)).tape.consumed = (walk i).tape.consumed) := by
  intro walk written reads
  have hwell := hp.wellFormed
  have hon := isOn_setOff u p tape limit
  have hruns : ∀ i < n, (walk i).isRunning = true := fun i hi =>
    running_of_step_ok hon (hsteps i hi)
  have hfloor : ∀ i < n, p.IsFloor (walk i).position := fun i hi =>
    (footing_afterSteps u p tape limit i).isFloor (hruns i hi)
  have hmoves : ∀ i < n, Moves p (walk i) (walk (i + 1)) := fun i hi =>
    moves_afterSteps hon (hruns i hi)
  have hqueued : ∀ i ≤ n, Queued tape (writtenIn p (walk 0) i) (reads i) (walk i) := fun i hi =>
    queued_afterSteps hwell fun j hj => hruns j (by omega)
  refine ⟨(hqueued n (Nat.le_refl n)).unread, (hqueued n (Nat.le_refl n)).le,
    (hqueued n (Nat.le_refl n)).consumed, fun i hi hreads => ?_, fun i hi => ?_⟩
  · obtain ⟨heading, hexit, hplace⟩ := (hmoves i hi).left (hfloor i hi)
    obtain ⟨tile, first, second, colour, htile, hbranch, hhead, hside⟩ :=
      exit?_of_reading hwell hreads hexit
    refine ⟨tile, first, second, colour, heading, htile, hbranch, ?_, hside, hplace⟩
    rw [(hqueued i (by omega)).head] at hhead
    exact getElem?_of_later (writtenIn_mono p (walk 0) (by omega)) hhead
  · obtain ⟨heading, hexit, -⟩ := (hmoves i hi).left (hfloor i hi)
    exact tape_of_exit? hwell hexit

theorem tape_is_a_queue_on_a_crossing :
    let walk := afterSteps (({} : Walker).setOff crossing (.ofColours []) 0)
    let written := (List.range 3).flatMap fun i => (walk i).writes crossing
    (walk 3).tape.unread = written.drop 1 ∧ (walk 3).tape.consumed = 1 ∧
    (∃ tile first second colour, crossing.tile? (walk 2).position = some tile ∧
      tile.kind.branchColours = some (first, second) ∧ written[0]? = some colour ∧
      (colour = first ∨ colour = second)) ∧
    (walk 2).writes crossing = [] := by
  intro walk written
  have hsteps : ∀ i < 3, (Machine.step (walk i)).2 = .ok () := by
    intro i hi
    match i, hi with
    | 0, _ | 1, _ | 2, _ => rfl
  obtain ⟨hunread, -, hconsumed, hread, hstep⟩ :=
    tape_is_a_queue reachable_crossing {} (.ofColours []) 0 hsteps
  have hbranch : (walk 2).isReading crossing = true := rfl
  obtain ⟨tile, first, second, colour, heading, htile, hcolours, hcolour, hside, -⟩ :=
    hread 2 (by decide) hbranch
  refine ⟨hunread, hconsumed, ⟨tile, first, second, colour, htile, hcolours, hcolour, ?_⟩, ?_⟩
  · exact hside.imp And.left And.left
  · obtain ⟨-, hwrites, -⟩ | ⟨hpasses, -⟩ := hstep 2 (by decide)
    · exact hwrites
    · rw [hbranch] at hpasses
      cases hpasses

end Tilewalk.Walker
