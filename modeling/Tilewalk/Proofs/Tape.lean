import Mathlib.Data.List.Forall2
import Tilewalk.Proofs.Result
import Tilewalk.Tape

/-! # Tapes and their copies are queues

What is left to read of a tape is the list that its own history leaves: colours are put behind it and
taken from its front. What is done to a copy is no part of the history of the original. Two tapes are
equal exactly when nothing that is done to them later reads anything else from one of them.
-/

namespace Tilewalk

namespace Tape

/-! ## Letters -/

theorem readLetters_map_letter (colours : List Colour) :
    readLetters (colours.map Colour.letter) = .ok colours := by
  induction colours with
  | nil => rfl
  | cons colour colours ih =>
    rw [List.map_cons, readLetters, Colour.ofLetter?_letter, ih]
    rfl

theorem map_letter_of_readLetters {letters : List Char} {colours : List Colour}
    (h : readLetters letters = .ok colours) : colours.map Colour.letter = letters := by
  induction letters generalizing colours with
  | nil =>
    cases h
    rfl
  | cons c letters ih =>
    unfold readLetters at h
    split at h
    · cases h
    next colour hcolour =>
      obtain ⟨rest, hrest, rfl⟩ := map_eq_ok.mp h
      rw [List.map_cons, ih hrest, Colour.letter_of_ofLetter? hcolour]

theorem Raw.ofLetters_eq_ok {text : String} {t : Raw} (h : ofLetters text = .ok t) :
    ∃ colours, text.toList = colours.map Colour.letter ∧ t = ofColours colours := by
  obtain ⟨colours, hcolours, rfl⟩ := map_eq_ok.mp h
  exact ⟨colours, (map_letter_of_readLetters hcolours).symm, rfl⟩

theorem Raw.WellFormed.display?_eq {t : Raw} (h : t.WellFormed) :
    t.display? = some (String.ofList (t.unread.map Colour.letter)) := by
  rw [display?, h.contents?_eq, Option.map_some, List.map_map]
  rfl

theorem Raw.display?_of_ofLetters {text : String} {t : Raw} (h : ofLetters text = .ok t) :
    t.display? = some text := by
  obtain ⟨colours, htext, rfl⟩ := ofLetters_eq_ok h
  rw [(wellFormed_ofColours colours).display?_eq, unread_ofColours, ← htext, String.ofList_toList]

theorem Raw.ofLetters_map_letter (colours : List Colour) :
    ofLetters (String.ofList (colours.map Colour.letter)) = .ok (ofColours colours) := by
  rw [ofLetters, String.toList_ofList, readLetters_map_letter]
  rfl

/-! ## What is done with tapes -/

inductive Origin where
  | blank
  | holding (content : List Symbol)
  | spelled (text : String)

inductive Use where
  | push (symbol : Symbol)
  | pop
  | advance

/-- What is done to a row of tapes. New tapes and copies come last in the row. -/
inductive Act where
  | make (origin : Origin)
  | copy (index : Nat)
  | use (index : Nat) (u : Use)

/-- The tape that is made, unless the letters spell none. -/
def Origin.tape? : Origin → Option Raw
  | blank => some .empty
  | holding content => some (.ofSymbols content)
  | spelled text => (Raw.ofLetters text).toOption

def Use.on (t : Raw) : Use → Raw
  | push symbol => t.push symbol
  | pop => t.pop.2
  | advance => t.advance

/-- A row after an act, when `make` is what comes about in it and `apply` what becomes of an item
that is used. -/
def Act.onRow {α : Type} (make : Origin → Option α) (apply : α → Use → α) (row : List α) :
    Act → List α
  | .make origin => row ++ (make origin).toList
  | .copy index => row ++ row[index]?.toList
  | .use index u => row.modify index (apply · u)

def rowAfter (row : List Raw) (acts : List Act) : List Raw :=
  acts.foldl (Act.onRow Origin.tape? Use.on) row

/-- What an act reads from the tapes of a row. -/
def Act.reads (row : List Raw) : Act → List Symbol
  | .use index .pop => row[index]?.toList.map fun t => t.pop.1
  | _ => []

def reads : List Raw → List Act → List Symbol
  | _, [] => []
  | row, act :: acts => act.reads row ++ reads (act.onRow Origin.tape? Use.on row) acts

def Act.usesOf (k : Nat) : Act → List Use
  | .use index u => if index = k then [u] else []
  | _ => []

/-! ## Histories -/

/-- How a tape has come about and what has been done to it since. A copy shares what was done before
it was made. -/
structure History where
  origin : Origin
  uses : List Use

def Origin.content : Origin → List Symbol
  | blank => []
  | holding content => content
  | spelled text => text.toList.map Colour.ofLetter?

def Origin.history? (origin : Origin) : Option History :=
  origin.tape?.map fun _ => ⟨origin, []⟩

def Use.onQueue (queue : List Colour) : Use → List Colour
  | push symbol => queue ++ symbol.toList
  | pop | advance => queue.tail

namespace History

def add (h : History) (u : Use) : History := { h with uses := h.uses ++ [u] }

def queue (h : History) : List Colour :=
  h.uses.foldl Use.onQueue (h.origin.content.filterMap id)

end History

def historiesAfter (acts : List Act) : List History :=
  acts.foldl (Act.onRow Origin.history? History.add) []

/-! ## One tape -/

@[simp] theorem History.queue_add (h : History) (u : Use) :
    (h.add u).queue = u.onQueue h.queue := by
  simp [queue, add]

/-- What is left to read of the tape is the queue of its history. -/
structure Holds (t : Raw) (h : History) : Prop extends Raw.WellFormed t where
  unread : t.unread = h.queue

theorem holds_origin {origin : Origin} {t : Raw} (ht : origin.tape? = some t) :
    Holds t ⟨origin, []⟩ := by
  cases origin with
  | blank =>
    cases ht
    exact ⟨Raw.wellFormed_empty, rfl⟩
  | holding content =>
    cases ht
    exact ⟨Raw.wellFormed_ofSymbols content, Raw.unread_ofSymbols content⟩
  | spelled text =>
    cases hspelled : Raw.ofLetters text with
    | error c => simp [Origin.tape?, hspelled, Except.toOption] at ht
    | ok made =>
      obtain rfl : made = t := by simpa [Origin.tape?, hspelled, Except.toOption] using ht
      obtain ⟨colours, htext, rfl⟩ := Raw.ofLetters_eq_ok hspelled
      refine ⟨Raw.wellFormed_ofColours colours, ?_⟩
      simp [History.queue, Origin.content, htext]

theorem wellFormed_on {t : Raw} (h : t.WellFormed) (u : Use) : (u.on t).WellFormed := by
  cases u with
  | push symbol => exact h.push symbol
  | pop | advance => exact h.advance

theorem unread_on {t : Raw} (h : t.WellFormed) (u : Use) : (u.on t).unread = u.onQueue t.unread := by
  cases u with
  | push symbol => exact h.unread_push symbol
  | pop | advance => exact h.unread_advance

theorem Holds.on {t : Raw} {h : History} (ht : Holds t h) (u : Use) : Holds (u.on t) (h.add u) := by
  refine ⟨wellFormed_on ht.toWellFormed u, ?_⟩
  rw [unread_on ht.toWellFormed, ht.unread, History.queue_add]

/-! ## Rows -/

section Rows

variable {α β : Type} {R : α → β → Prop} {make : Origin → Option α} {make' : Origin → Option β}
  {apply : α → Use → α} {apply' : β → Use → β} {first : List α} {second : List β}

theorem forall₂_getElem? (h : List.Forall₂ R first second) (index : Nat) :
    List.Forall₂ R first[index]?.toList second[index]?.toList := by
  induction h generalizing index with
  | nil => exact .nil
  | cons hab _ ih =>
    cases index with
    | zero => exact .cons hab .nil
    | succ index => exact ih index

theorem forall₂_modify (h : List.Forall₂ R first second) {f : α → α} {g : β → β}
    (hfg : ∀ a b, R a b → R (f a) (g b)) (index : Nat) :
    List.Forall₂ R (first.modify index f) (second.modify index g) := by
  induction h generalizing index with
  | nil => simp
  | cons hab hrest ih =>
    cases index with
    | zero => exact .cons (hfg _ _ hab) hrest
    | succ index => exact .cons hab (ih index)

/-- Rows whose items correspond stay so, when what is made corresponds and every use keeps it up. -/
theorem forall₂_onRow
    (hmake : ∀ origin, List.Forall₂ R (make origin).toList (make' origin).toList)
    (happly : ∀ a b u, R a b → R (apply a u) (apply' b u)) (h : List.Forall₂ R first second)
    (act : Act) : List.Forall₂ R (act.onRow make apply first) (act.onRow make' apply' second) := by
  cases act with
  | make origin => exact List.rel_append h (hmake origin)
  | copy index => exact List.rel_append h (forall₂_getElem? h index)
  | use index u => exact forall₂_modify h (fun a b => happly a b u) index

theorem forall₂_foldl_onRow
    (hmake : ∀ origin, List.Forall₂ R (make origin).toList (make' origin).toList)
    (happly : ∀ a b u, R a b → R (apply a u) (apply' b u)) (h : List.Forall₂ R first second)
    (acts : List Act) :
    List.Forall₂ R (acts.foldl (Act.onRow make apply) first)
      (acts.foldl (Act.onRow make' apply') second) := by
  induction acts generalizing first second with
  | nil => exact h
  | cons act acts ih => exact ih (forall₂_onRow hmake happly h act)

theorem getElem?_onRow {k : Nat} (hk : k < first.length) (act : Act) :
    (act.onRow make apply first)[k]? = first[k]?.map ((act.usesOf k).foldl apply) := by
  cases act with
  | make | copy =>
    rw [Act.onRow, List.getElem?_append_left hk]
    exact Option.map_id'.symm
  | use index u =>
    rw [Act.onRow, List.getElem?_modify]
    by_cases hindex : index = k <;> simp [Act.usesOf, hindex]

theorem length_le_onRow (act : Act) : first.length ≤ (act.onRow make apply first).length := by
  cases act <;> simp [Act.onRow]

theorem getElem?_foldl_onRow {k : Nat} (hk : k < first.length) (acts : List Act) :
    (acts.foldl (Act.onRow make apply) first)[k]? =
      first[k]?.map ((acts.flatMap (Act.usesOf k)).foldl apply) := by
  induction acts generalizing first with
  | nil => exact Option.map_id'.symm
  | cons act acts ih =>
    rw [List.foldl_cons, ih (Nat.lt_of_lt_of_le hk (length_le_onRow act)), getElem?_onRow hk,
      Option.map_map, List.flatMap_cons]
    congr 1
    funext a
    exact List.foldl_append.symm

end Rows

theorem holds_rowAfter (acts : List Act) :
    List.Forall₂ Holds (rowAfter [] acts) (historiesAfter acts) := by
  refine forall₂_foldl_onRow (fun origin => ?_) (fun t h u ht => ht.on u) .nil acts
  unfold Origin.history?
  cases hmade : origin.tape? with
  | none => exact .nil
  | some t => exact .cons (holds_origin hmade) .nil

/-! ## Equal tapes -/

section Equal

variable {t u : Raw} {first second : List Raw}

theorem Raw.WellFormed.equal?_eq (ht : t.WellFormed) (hu : u.WellFormed) :
    t.equal? u = some (decide (t.unread = u.unread)) := by
  have hinj : t.unread.map some = u.unread.map some ↔ t.unread = u.unread :=
    List.map_inj_right fun _ _ => Option.some.inj
  rw [equal?, ht.contents?_eq, hu.contents?_eq]
  show some (t.unread.map some == u.unread.map some) = _
  rw [beq_eq_decide, decide_eq_decide.mpr hinj]

/-- Two tapes of which the same is left to read. -/
structure Same (t u : Raw) : Prop where
  left : t.WellFormed
  right : u.WellFormed
  unread : t.unread = u.unread

theorem Same.on (h : Same t u) (use : Use) : Same (use.on t) (use.on u) := by
  refine ⟨wellFormed_on h.left use, wellFormed_on h.right use, ?_⟩
  rw [unread_on h.left, unread_on h.right, h.unread]

theorem sameRows_rowAfter (h : List.Forall₂ Same first second) (acts : List Act) :
    List.Forall₂ Same (rowAfter first acts) (rowAfter second acts) := by
  refine forall₂_foldl_onRow (fun origin => ?_) (fun t u use htu => htu.on use) h acts
  refine List.forall₂_same.mpr fun t ht => ?_
  have hmade := (holds_origin (Option.mem_toList.mp ht)).toWellFormed
  exact ⟨hmade, hmade, rfl⟩

theorem reads_act_of_same (h : List.Forall₂ Same first second) (act : Act) :
    act.reads first = act.reads second := by
  unfold Act.reads
  split
  · rw [← List.forall₂_eq_eq_eq, List.forall₂_map_left_iff, List.forall₂_map_right_iff]
    refine (forall₂_getElem? h _).imp fun t u htu => ?_
    simp only [Raw.pop, htu.left.head_eq, htu.right.head_eq, htu.unread]
  · rfl

theorem reads_of_same (h : List.Forall₂ Same first second) (acts : List Act) :
    reads first acts = reads second acts := by
  induction acts generalizing first second with
  | nil => rfl
  | cons act acts ih =>
    rw [reads, reads, reads_act_of_same h act]
    exact congrArg _ (ih (sameRows_rowAfter h [act]))

/-- To pop a tape over and over reads all of it, and then nothing. -/
theorem reads_pops (h : t.WellFormed) (n : Nat) :
    reads [t] (List.replicate n (.use 0 .pop)) = (List.range n).map fun i => t.unread[i]? := by
  induction n generalizing t with
  | zero => rfl
  | succ n ih =>
    rw [List.replicate_succ, reads, List.range_succ_eq_map, List.map_cons, List.map_map]
    show [t.head] ++ reads [t.advance] _ = _
    rw [ih h.advance, h.unread_advance, h.head_eq, List.head?_eq_getElem?]
    simp [Function.comp_def]

theorem unread_eq_of_reads (ht : t.WellFormed) (hu : u.WellFormed)
    (h : ∀ acts, reads [t] acts = reads [u] acts) : t.unread = u.unread := by
  apply List.ext_getElem?
  intro i
  have hpops := h (List.replicate (i + 1) (.use 0 .pop))
  rw [reads_pops ht, reads_pops hu] at hpops
  exact List.map_inj_left.mp hpops i (by simp)

end Equal

/-! ## The theorem -/

/-- All that can be seen of a tape is what its history says. The slice that begins at the head can
always be had, and no cell is empty. -/
structure QueueOf (t : Raw) (h : History) : Prop extends Raw.WellFormed t where
  contents : t.contents? = some (h.queue.map some)
  head : t.head = h.queue.head?
  popped : t.pop.1 = h.queue.head?
  length : t.length? = some h.queue.length
  isEmpty : t.isEmpty? = some h.queue.isEmpty

theorem Holds.queueOf {t : Raw} {h : History} (ht : Holds t h) : QueueOf t h := by
  have hcontents : t.contents? = some (h.queue.map some) := by
    rw [ht.contents?_eq, ht.unread]
  have hhead : t.head = h.queue.head? := by rw [ht.head_eq, ht.unread]
  refine ⟨ht.toWellFormed, hcontents, hhead, hhead, ?_, ?_⟩
  · rw [Raw.length?, hcontents, Option.map_some, List.length_map]
  · rw [Raw.isEmpty?, hcontents, Option.map_some, List.isEmpty_map]

/-- Equal tapes, and all that can be seen of them but how much of them has been read. -/
structure SeenAlike (t u : Raw) : Prop where
  equal : t.equal? u = some true
  contents : t.contents? = u.contents?
  head : t.head = u.head
  length : t.length? = u.length?
  isEmpty : t.isEmpty? = u.isEmpty?
  display : t.display? = u.display?

theorem Same.seenAlike {t u : Raw} (h : Same t u) : SeenAlike t u := by
  have hcontents : t.contents? = u.contents? := by
    rw [h.left.contents?_eq, h.right.contents?_eq, h.unread]
  refine ⟨?_, hcontents, ?_, ?_, ?_, ?_⟩
  · rw [h.left.equal?_eq h.right, decide_eq_true h.unread]
  · rw [h.left.head_eq, h.right.head_eq, h.unread]
  · rw [Raw.length?, Raw.length?, hcontents]
  · rw [Raw.isEmpty?, Raw.isEmpty?, hcontents]
  · rw [Raw.display?, Raw.display?, hcontents]

/-- Whatever tapes are made and copied and whatever is done to each, the head stays on the cells, no
cell is empty, and what is seen of a tape is the queue of its own history. A copy starts as the
original is, and from then on a tape is changed by its own uses alone. A tape is spelled by the text
that displays it and by no other. Equal tapes are those from which the same is read, whatever is done
to both and to copies of them, and nothing that is seen then tells them apart. -/
theorem tapes_are_queues (acts : List Act) :
    List.Forall₂ QueueOf (rowAfter [] acts) (historiesAfter acts) ∧
    (∀ k t, (rowAfter [] acts)[k]? = some t →
      (rowAfter [] (acts ++ [.copy k]))[(rowAfter [] acts).length]? = some t ∧
      ∀ later, (rowAfter [] (acts ++ later))[k]? =
        some ((later.flatMap (Act.usesOf k)).foldl Use.on t)) ∧
    (∀ t : Raw, t.WellFormed → ∃ text copy, t.display? = some text ∧
      Raw.ofLetters text = .ok copy ∧ copy.equal? t = some true) ∧
    (∀ text t, Raw.ofLetters text = .ok t → t.display? = some text) ∧
    ∀ t u : Raw, t.WellFormed → u.WellFormed →
      (t.equal? u).isSome ∧
      (t.equal? u = some true ↔ ∀ later, reads [t] later = reads [u] later) ∧
      (t.equal? u = some true →
        ∀ later, List.Forall₂ SeenAlike (rowAfter [t] later) (rowAfter [u] later)) := by
  refine ⟨(holds_rowAfter acts).imp fun t h ht => ht.queueOf, fun k t ht => ⟨?_, fun later => ?_⟩,
    fun t ht => ?_, fun text t => Raw.display?_of_ofLetters, fun t u ht hu => ?_⟩
  · rw [rowAfter, List.foldl_append]
    show (rowAfter [] acts ++ (rowAfter [] acts)[k]?.toList)[_]? = _
    rw [ht]
    exact List.getElem?_concat_length
  · rw [rowAfter, List.foldl_append]
    show (later.foldl _ (rowAfter [] acts))[k]? = _
    rw [getElem?_foldl_onRow (List.getElem?_eq_some_iff.mp ht).1, ht]
    rfl
  · refine ⟨_, _, ht.display?_eq, Raw.ofLetters_map_letter t.unread, ?_⟩
    rw [(Raw.wellFormed_ofColours _).equal?_eq ht, Raw.unread_ofColours, decide_eq_true rfl]
  · have hequal : t.equal? u = some true ↔ t.unread = u.unread := by
      rw [ht.equal?_eq hu, Option.some.injEq, decide_eq_true_iff]
    have hsame (h : t.equal? u = some true) : List.Forall₂ Same [t] [u] :=
      .cons ⟨ht, hu, hequal.mp h⟩ .nil
    refine ⟨?_, ⟨fun h => reads_of_same (hsame h), fun h => ?_⟩, fun h later => ?_⟩
    · rw [ht.equal?_eq hu]
      rfl
    · exact hequal.mpr (unread_eq_of_reads ht hu h)
    · exact (sameRows_rowAfter (hsame h) later).imp fun t u htu => htu.seenAlike

/-- A tape is read from and written on, and then copied. -/
def copied : List Act :=
  [.make (.spelled "RB"), .use 0 .pop, .use 0 (.push none), .use 0 (.push (some .green)), .copy 0]

/-- The copy is read past its end and written on. -/
def copyUsed : List Act :=
  [.use 1 .pop, .use 1 .advance, .use 1 .pop, .use 1 (.push (some .yellow))]

theorem tapes_are_queues_of_a_used_copy :
    let t : Raw := ⟨#[some .red, some .blue, some .green], 1⟩
    let u : Raw := ⟨#[some .red, some .blue, some .green, some .yellow], 3⟩
    rowAfter [] copied = [t, t] ∧ rowAfter [] (copied ++ copyUsed) = [t, u] ∧
      t.contents? = some [some .blue, some .green] ∧ u.contents? = some [some .yellow] ∧
      (rowAfter [] (copied ++ [.copy 0]))[2]? = some t ∧
      (rowAfter [] (copied ++ copyUsed))[0]? = some t ∧
      (∃ again, Raw.ofLetters "BG" = .ok again ∧ again.equal? t = some true ∧
        List.Forall₂ SeenAlike (rowAfter [again] copied) (rowAfter [t] copied)) ∧
      ∃ later, reads [t] later ≠ reads [u] later := by
  intro t u
  have hcopied : rowAfter [] copied = [t, t] := rfl
  have hused : rowAfter [] (copied ++ copyUsed) = [t, u] := rfl
  obtain ⟨-, hown, hspelled, htext, hequal⟩ := tapes_are_queues copied
  obtain ⟨hcopy, huntouched⟩ := hown 0 t (by rw [hcopied]; rfl)
  have hqueues := (tapes_are_queues (copied ++ copyUsed)).1
  rw [hused] at hqueues
  obtain ⟨ht, hu⟩ : QueueOf t _ ∧ QueueOf u _ := by
    cases hqueues with
    | cons ht hrest =>
      cases hrest with
      | cons hu => exact ⟨ht, hu⟩
  obtain ⟨text, again, hdisplay, hagain, hsame⟩ := hspelled t ht.toWellFormed
  obtain rfl : "BG" = text := Option.some.inj hdisplay
  refine ⟨hcopied, hused, ht.contents, hu.contents, hcopy, huntouched copyUsed,
    ⟨again, hagain, hsame, ?_⟩, ?_⟩
  · obtain rfl : Raw.ofColours [.blue, .green] = again := Except.ok.inj hagain
    have hmade := Raw.wellFormed_ofColours [.blue, .green]
    exact (hequal _ t hmade ht.toWellFormed).2.2 hsame copied
  · by_contra halike
    simp only [ne_eq, not_exists, not_not] at halike
    have htold := (hequal t u ht.toWellFormed hu.toWellFormed).2.1.mpr halike
    cases htold

end Tape

end Tilewalk
