import Mathlib.Combinatorics.Pigeonhole
import Mathlib.Data.List.Infix
import Tilewalk.Proofs.Machine.Limit
import Tilewalk.Proofs.Machine.Reading

/-! # Walks without an end

A token that walks for long enough comes to a place where it was before. When all that matters is as
it was then, it goes on as it did then, and never stops. Without branches nothing matters but the
place, and without writers there are only so many tapes.
-/

namespace Tilewalk

/-! ## Programs of some kinds -/

namespace Program

def NoBranches (p : Program) : Prop :=
  ∀ place tile, p.tile? place = some tile → tile.kind.branchColours = none

def NoWriters (p : Program) : Prop :=
  ∀ place tile, p.tile? place = some tile → tile.kind.written = none

/-- The cells that a token can walk on. -/
def floor (p : Program) : Finset Position := insert p.start.position p.cells.keys.toFinset

theorem mem_floor {p : Program} {place : Position} (h : p.IsFloor place) : place ∈ p.floor := by
  unfold floor
  rw [Finset.mem_insert, List.mem_toFinset, Std.ExtTreeMap.mem_keys]
  exact h.imp_right mem_of_tile?_isSome

theorem card_floor_le (p : Program) : p.floor.card ≤ p.tileCount + 1 := by
  have hkeys : p.cells.keys.toFinset.card ≤ p.tileCount := by
    have hle := List.toFinset_card_le p.cells.keys
    rwa [Std.ExtTreeMap.length_keys] at hle
  exact (Finset.card_insert_le _ _).trans (Nat.add_le_add_right hkeys 1)

end Program

namespace Walker

variable {α : Type} {p : Program} {look : Walker → α} {v w : Walker} {i j k n : Nat}

/-! ## A walk that comes round -/

/-- What `look` sees of a walker is enough to tell whether its next move is its last one, and what
`look` sees after that. -/
def Foretells (p : Program) (look : Walker → α) : Prop :=
  ∀ v w : Walker, v.IsOn p 0 → w.IsOn p 0 → v.isRunning = true → w.isRunning = true →
    look v = look w →
    (v.move p).isRunning = (w.move p).isRunning ∧ look (v.move p) = look (w.move p)

/-- A walk that looks as it did before goes on as it did. It has got further than what it repeats,
and so it never comes to an end. -/
theorem repeats (hlook : Foretells p look) (hon : w.IsOn p 0) (hij : i < j)
    (hruns : (afterSteps w j).isRunning = true)
    (hsame : look (afterSteps w i) = look (afterSteps w j)) (k : Nat) :
    (afterSteps w (j + k)).isRunning = true ∧
      look (afterSteps w (i + k)) = look (afterSteps w (j + k)) := by
  induction k with
  | zero => exact ⟨hruns, hsame⟩
  | succ k ih =>
    obtain ⟨hlater, hlooks⟩ := ih
    have hearlier := running_of_le hon hlater (show i + k ≤ j + k by omega)
    obtain ⟨hmoved, hlooks⟩ := hlook _ _ (isOn_afterSteps hon _) (isOn_afterSteps hon _) hearlier
      hlater hlooks
    rw [← afterSteps_succ_running hon hearlier, ← afterSteps_succ_running hon hlater] at hmoved hlooks
    have hnext := running_of_le hon hlater (show i + k + 1 ≤ j + k by omega)
    exact ⟨hmoved ▸ hnext, hlooks⟩

/-- A walk that is longer than there are things to see never comes to an end. -/
theorem runs_forever (hlook : Foretells p look) (hon : w.IsOn p 0) {seen : Finset α}
    (hseen : ∀ n, (afterSteps w n).isRunning = true → look (afterSteps w n) ∈ seen)
    (hruns : (afterSteps w seen.card).isRunning = true) (n : Nat) :
    (afterSteps w n).isRunning = true := by
  have hall : ∀ k ∈ Finset.range (seen.card + 1), look (afterSteps w k) ∈ seen := by
    intro k hk
    exact hseen k (running_of_le hon hruns (Nat.lt_succ_iff.mp (Finset.mem_range.mp hk)))
  obtain ⟨i, hi, j, hj, hne, hsame⟩ :=
    Finset.exists_ne_map_eq_of_card_lt_of_maps_to (by simp) hall
  rw [Finset.mem_range, Nat.lt_succ_iff] at hi hj
  rcases Nat.lt_or_gt_of_ne hne with hij | hji
  · have hrepeats := repeats hlook hon hij (running_of_le hon hruns hj) hsame n
    exact running_of_le hon hrepeats.1 (Nat.le_add_left n j)
  · have hrepeats := repeats hlook hon hji (running_of_le hon hruns hi) hsame.symm n
    exact running_of_le hon hrepeats.1 (Nat.le_add_left n i)

/-! ## What settles the next move -/

/-- Whether a token still walks when it has left `place` by a heading, and where it is then. A token
without a heading cannot leave. -/
def leaves (p : Program) (place : Position) : Option Heading → Bool × Position
  | none => (false, place)
  | some heading =>
    let next := place.neighbour heading
    ((endingAt p next).isNone, if p.contains next then next else place)

theorem leaves_move (hlimit : w.limit = 0) (hruns : w.isRunning = true) :
    ((w.move p).isRunning, (w.move p).position) =
      leaves p w.position ((exit? p w.position w.tape).map Prod.fst) := by
  have hmoves := moves_move p w
  generalize w.move p = v at hmoves ⊢
  cases hmoves with
  | stuck hexit => simp [hexit, leaves, endBy, counted]
  | blocked hexit hending =>
    simp [hexit, leaves, hending, endingAt_eq_edge.mp hending, endBy, counted]
  | ended hexit hending hne =>
    have hinside := contains_of_endingAt (by rwa [hending, Ne, Option.some.injEq])
    simp [hexit, leaves, hending, hinside, endBy]
  | went hexit hending =>
    have hinside := contains_of_endingAt (by rw [hending]; simp)
    simp [hexit, leaves, hending, hinside, checkLimit, counted, hlimit, hruns]

theorem unread_move (p : Program) (w : Walker) :
    (w.move p).tape.unread =
      ((exit? p w.position w.tape).map (·.2.unread)).getD w.tape.unread := by
  have hmoves := moves_move p w
  generalize w.move p = v at hmoves ⊢
  cases hmoves with
  | stuck hexit => simp [hexit, endBy, counted]
  | blocked hexit | ended hexit => simp [hexit, endBy]
  | went hexit => simp [hexit]

theorem heading_of_noBranches (h : p.NoBranches) (place : Position) (first second : Tape) :
    (exit? p place first).map Prod.fst = (exit? p place second).map Prod.fst := by
  unfold exit?
  split_ifs with hstart
  · rfl
  · cases htile : p.tile? place with
    | none => rfl
    | some tile => simp [tileExit, h place tile htile]

/-- Of a tape nothing matters but what is left to read. -/
theorem exit?_of_unread {first second : Tape} (h : first.unread = second.unread) (place : Position) :
    (exit? p place first).map (Prod.map id Tape.unread) =
      (exit? p place second).map (Prod.map id Tape.unread) := by
  unfold exit?
  split_ifs with hstart
  · simp [h]
  · cases p.tile? place with
    | none => rfl
    | some tile =>
      unfold tileExit branchExit
      simp only [Tape.head_eq, h, Option.map_some, Option.some.injEq]
      split
      · split_ifs <;> simp [h]
      · simp [h]

theorem foretells_position (h : p.NoBranches) : Foretells p position := by
  intro v w hv hw hvruns hwruns hplace
  have hleaves := leaves_move (p := p) hv.limit hvruns
  rw [hplace, heading_of_noBranches h _ v.tape w.tape, ← leaves_move hw.limit hwruns] at hleaves
  exact Prod.mk.inj hleaves

theorem foretells_rest (p : Program) : Foretells p fun w => (w.position, w.tape.unread) := by
  intro v w hv hw hvruns hwruns hlooks
  obtain ⟨hplace, hunread⟩ := Prod.mk.inj hlooks
  have hexit := exit?_of_unread (p := p) hunread w.position
  have hheading : (exit? p w.position v.tape).map Prod.fst =
      (exit? p w.position w.tape).map Prod.fst := by
    simpa [Function.comp_def] using congrArg (Option.map Prod.fst) hexit
  have hrest : (exit? p w.position v.tape).map (·.2.unread) =
      (exit? p w.position w.tape).map (·.2.unread) := by
    simpa [Function.comp_def] using congrArg (Option.map Prod.snd) hexit
  have hleaves := leaves_move (p := p) hv.limit hvruns
  rw [hplace, hheading, ← leaves_move hw.limit hwruns] at hleaves
  obtain ⟨hmoved, hplaces⟩ := Prod.mk.inj hleaves
  refine ⟨hmoved, Prod.ext hplaces ?_⟩
  show (v.move p).tape.unread = (w.move p).tape.unread
  rw [unread_move, unread_move, hplace, hrest, hunread]

/-! ## What there is to see -/

section Walks

variable {u : Walker} {tape : Tape}

theorem position_mem_floor (hruns : (afterSteps (u.setOff p tape 0) n).isRunning = true) :
    (afterSteps (u.setOff p tape 0) n).position ∈ p.floor :=
  Program.mem_floor ((footing_afterSteps u p tape 0 n).isFloor hruns)

theorem unread_suffix_of_noWriters (hp : p.WellFormed) (h : p.NoWriters) (n : Nat) :
    (afterSteps (u.setOff p tape 0) n).tape.unread <:+ tape.unread := by
  have hwrites : ∀ v : Walker, v.writes p = [] := by
    intro v
    cases htile : p.tile? v.position with
    | none => simp [writes, htile]
    | some tile => rw [writes_of_tile htile, h _ tile htile]; rfl
  refine (afterSteps_induction (P := fun v => v.tape.unread <:+ tape.unread)
    (isOn_setOff u p tape 0) List.suffix_rfl (fun v _ _ hv => ?_) n).2
  rw [unread_move]
  cases hexit : exit? p v.position v.tape with
  | none => exact hv
  | some exit =>
    obtain ⟨heading, next⟩ := exit
    obtain ⟨-, -, hnext⟩ | ⟨-, hnext, -⟩ := tape_of_exit? hp hexit
    · refine List.IsSuffix.trans ?_ hv
      simp [hnext, List.tail_suffix]
    · simpa [hnext, hwrites] using hv

end Walks

/-! ## The theorem -/

/-- A walk that has not ended after `bound` steps never ends. -/
structure ShowsBy (bound : Nat) (w : Walker) : Prop where
  endless : (afterSteps w bound).isRunning = true → ∀ n, (afterSteps w n).isRunning = true
  halting : ∀ k v, HaltsAfter k w v → k ≤ bound

theorem showsBy_of_card {u : Walker} {tape : Tape} {bound : Nat} (hlook : Foretells p look)
    {seen : Finset α} (hcard : seen.card ≤ bound)
    (hseen : ∀ n, (afterSteps (u.setOff p tape 0) n).isRunning = true →
      look (afterSteps (u.setOff p tape 0) n) ∈ seen) : ShowsBy bound (u.setOff p tape 0) := by
  have hon := isOn_setOff u p tape 0
  have hendless : (afterSteps (u.setOff p tape 0) bound).isRunning = true →
      ∀ n, (afterSteps (u.setOff p tape 0) n).isRunning = true := fun hruns =>
    runs_forever hlook hon hseen (running_of_le hon hruns hcard)
  refine ⟨hendless, fun k v hhalts => ?_⟩
  obtain ⟨n, rfl⟩ := Nat.exists_eq_succ_of_ne_zero (Nat.ne_of_gt hhalts.pos)
  obtain ⟨hruns, hhalted, -⟩ := (haltsAfter_succ_iff hon rfl).mp hhalts
  by_contra hlong
  have hlast := hendless (running_of_le hon hruns (by omega)) (n + 1)
  rw [hhalted] at hlast
  cases hlast

/-- On a program without branches, a walk without a limit that has not ended after one step more
than there are tiles never ends. On one without writers it takes as many times that as there are
colours on the tape, and once more. -/
theorem endless_walks_show {p : Program} (hp : p.Reachable) (u : Walker) (tape : Tape) :
    (p.NoBranches → ShowsBy (p.tileCount + 1) (u.setOff p tape 0)) ∧
    (p.NoWriters → ShowsBy ((p.tileCount + 1) * (tape.length + 1)) (u.setOff p tape 0)) := by
  constructor
  · intro hbranches
    exact showsBy_of_card (foretells_position hbranches) p.card_floor_le
      fun n => position_mem_floor
  · intro hwriters
    let seen := p.floor ×ˢ tape.unread.tails.toFinset
    have hcard : seen.card ≤ (p.tileCount + 1) * (tape.length + 1) := by
      rw [Finset.card_product, Tape.length_eq, ← List.length_tails]
      exact Nat.mul_le_mul p.card_floor_le (List.toFinset_card_le _)
    refine showsBy_of_card (foretells_rest p) hcard fun n hruns => ?_
    have hunread : (afterSteps (u.setOff p tape 0) n).tape.unread <:+ tape.unread :=
      unread_suffix_of_noWriters hp.wellFormed hwriters n
    simpa [seen, List.mem_tails] using ⟨position_mem_floor hruns, hunread⟩

/-- The way from the start leads into a round of four tiles, with one of `kind` at a corner by the
edge. -/
def circuit (kind : Kind) : Program where
  cols := 4
  rows := 4
  cells := ((((∅ : Cells).insert ⟨2, 1⟩ ⟨.conveyor, .turned3⟩).insert ⟨3, 1⟩ ⟨kind, .identity⟩).insert
    ⟨3, 2⟩ ⟨.conveyor, .turned1⟩).insert ⟨2, 2⟩ ⟨.conveyor, .turned2⟩
  start := Program.defaultStart 4
  goal := Program.defaultGoal 4 4

theorem reachable_circuit (kind : Kind) : (circuit kind).Reachable := by
  have hempty : Program.blank 4 4 = .ok (.emptyGrid 4 4) := rfl
  have hfirst := (Program.Reachable.blank hempty).edit (.placeTile ⟨2, 1⟩ ⟨.conveyor, .turned3⟩) rfl
  have hcorner := hfirst.edit (.placeTile ⟨3, 1⟩ ⟨kind, .identity⟩) rfl
  have hthird := hcorner.edit (.placeTile ⟨3, 2⟩ ⟨.conveyor, .turned1⟩) rfl
  exact hthird.edit (.placeTile ⟨2, 2⟩ ⟨.conveyor, .turned2⟩) rfl

theorem kind_of_circuit {kind : Kind} {place : Position} {tile : Tile}
    (h : (circuit kind).tile? place = some tile) : tile.kind = .conveyor ∨ tile.kind = kind := by
  simp only [circuit, Program.tile?, Std.ExtTreeMap.getElem?_insert] at h
  split_ifs at h <;> simp_all <;> simp [← h]

theorem endless_walks_show_on_a_circuit :
    let walk := fun kind colours => ({} : Walker).setOff (circuit kind) (.ofColours colours) 0
    ((circuit .conveyor).NoBranches ∧ (circuit .branchBlueRed).NoWriters) ∧
    (∀ n, (afterSteps (walk .conveyor []) n).isRunning = true) ∧
    (∀ n, (afterSteps (walk .branchBlueRed [.blue]) n).isRunning = true) ∧
    ∃ v, HaltsAfter 3 (walk .branchBlueRed [.red]) v ∧ 3 ≤ 10 := by
  intro walk
  have hbranches : (circuit .conveyor).NoBranches := by
    intro place tile htile
    rcases kind_of_circuit htile with hkind | hkind <;> rw [hkind] <;> rfl
  have hwriters : (circuit .branchBlueRed).NoWriters := by
    intro place tile htile
    rcases kind_of_circuit htile with hkind | hkind <;> rw [hkind] <;> rfl
  have hround := (endless_walks_show (reachable_circuit .conveyor) {} (.ofColours [])).1 hbranches
  have hblue :=
    (endless_walks_show (reachable_circuit .branchBlueRed) {} (.ofColours [.blue])).2 hwriters
  have hred :=
    (endless_walks_show (reachable_circuit .branchBlueRed) {} (.ofColours [.red])).2 hwriters
  have hhalts := HaltsAfter.more (m := walk .branchBlueRed [.red]) rfl rfl
    (.more rfl rfl (.last rfl rfl))
  exact ⟨⟨hbranches, hwriters⟩, hround.endless rfl, hblue.endless rfl, _, hhalts,
    hred.halting _ _ hhalts⟩

end Walker

end Tilewalk
