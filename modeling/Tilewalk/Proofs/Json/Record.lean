import Tilewalk.Proofs.Json.Reader

/-! # Records are read as they are written

The members of an object stand in the order of the fields, and those of fields that are not
required can be left out.
-/

namespace Tilewalk.Json

variable {α β : Type}

/-- Reading the members in order takes the record from one value to another. -/
inductive Fills : List (Field α) → List (String × Value) → α → α → Prop where
  | nil (a : α) : Fills [] [] a a
  | member {f : Field α} {fields : List (Field α)} {v : Value} {ms : List (String × Value)}
      {a b c : α} : Reads (f.store a) v b → Fills fields ms b c →
      Fills (f :: fields) ((f.key, v) :: ms) a c
  | absent {f : Field α} {fields : List (Field α)} {ms : List (String × Value)} {a b : α} :
      f.required = false → Fills fields ms a b → Fills (f :: fields) ms a b

theorem Reads.store {read : Read β} {v : Value} {b : β} (h : Reads read v b) {key : String}
    {required : Bool} (set : α → β → α) (a : α) :
    Reads ((Field.ofRead key required read set).store a) v (set a b) := by
  intro rest hrest
  unfold Field.ofRead
  dsimp only
  rw [h rest hrest, ok_bind]

/-! ## The text of an object -/

/-- What stands behind the opening brace, or behind a member when `first` does not hold. -/
def membersText : Bool → List (String × Value) → List Char
  | true, (key, v) :: ms => writeText key.toList ++ ':' :: (v.compact ++ Value.compactMembers ms)
  | _, ms => Value.compactMembers ms

theorem compact_object (ms : List (String × Value)) :
    (Value.object ms).compact = '\x7b' :: membersText true ms := by
  cases ms <;> simp [membersText, Value.compact, Value.compactMembers]

theorem ends_compactMembers (ms : List (String × Value)) (rest : List Char) :
    Ends (Value.compactMembers ms ++ rest) := by
  cases ms with
  | nil => exact .brace _
  | cons m ms => exact .comma _

theorem length_lt_compactMembers (ms : List (String × Value)) :
    ms.length < (Value.compactMembers ms).length := by
  induction ms with
  | nil => exact Nat.one_pos
  | cons m ms ih =>
    simp only [Value.compactMembers, List.length_cons, List.length_append]
    omega

theorem length_le_membersText (ms : List (String × Value)) :
    ms.length ≤ (membersText true ms).length := by
  cases ms with
  | nil => exact Nat.zero_le _
  | cons m ms =>
    have hmembers := length_lt_compactMembers ms
    simp only [membersText, List.length_cons, List.length_append]
    omega

theorem compactMembers_closed (ms : List (String × Value)) :
    ∃ cs, Value.compactMembers ms = cs ++ ['\x7d'] := by
  induction ms with
  | nil => exact ⟨[], rfl⟩
  | cons m ms ih =>
    obtain ⟨cs, hcs⟩ := ih
    refine ⟨',' :: (writeText m.1.toList ++ ':' :: (m.2.compact ++ cs)), ?_⟩
    simp [Value.compactMembers, hcs]

theorem compact_object_closed (ms : List (String × Value)) :
    ∃ cs, (Value.object ms).compact = '\x7b' :: (cs ++ ['\x7d']) := by
  cases ms with
  | nil => exact ⟨[], rfl⟩
  | cons m ms =>
    obtain ⟨cs, hcs⟩ := compactMembers_closed ms
    refine ⟨writeText m.1.toList ++ ':' :: (m.2.compact ++ cs), ?_⟩
    simp [Value.compact, hcs]

/-! ## Members -/

namespace Shape

theorem nextKey_nil (first : Bool) (rest : List Char) :
    nextKey first (membersText first [] ++ rest) = .ok (false, rest) := by
  cases first <;> rfl

/-- Behind the quote of the next key stand the key, a colon, the value and the other members. -/
theorem nextKey_cons (first : Bool) (key : String) (v : Value) (ms : List (String × Value))
    (rest : List Char) :
    nextKey first (membersText first ((key, v) :: ms) ++ rest) =
      .ok (true, key.toList.flatMap writeChar ++
        '"' :: ':' :: (v.compact ++ (Value.compactMembers ms ++ rest))) := by
  cases first with
  | true => simp [membersText, writeText, nextKey, skipSpace_cons (c := '"') rfl]
  | false =>
    simp [membersText, Value.compactMembers, writeText, nextKey, skipSpace_cons (c := '"') rfl,
      skipSpace_cons (c := ',') rfl]

theorem member_of_find {shape : Shape α} {f : Field α} {a b : α} {seen : List String} {v : Value}
    (hfind : shape.fields.find? (fun g => g.key.toList == f.key.toList) = some f)
    (hnew : f.key ∉ seen) (h : Reads (f.store a) v b) {rest : List Char} (hrest : Ends rest) :
    shape.member f.key.toList a seen (':' :: (v.compact ++ rest)) =
      .ok ((b, f.key :: seen), rest) := by
  unfold member
  rw [hfind]
  dsimp only
  rw [if_neg hnew]
  show (f.store a (v.compact ++ rest) >>= fun r => .ok ((r.1, f.key :: seen), r.2)) = _
  rw [h rest hrest, ok_bind]

theorem find?_key {fields : List (Field α)} (hkeys : (fields.map Field.key).Nodup) {f : Field α}
    (hf : f ∈ fields) : fields.find? (fun g => g.key.toList == f.key.toList) = some f := by
  induction fields with
  | nil => cases hf
  | cons g fields ih =>
    rw [List.map_cons, List.nodup_cons] at hkeys
    rcases List.mem_cons.mp hf with rfl | hf
    · simp
    · have hne : g.key.toList ≠ f.key.toList := by
        intro heq
        exact hkeys.1 (String.toList_inj.mp heq ▸ List.mem_map_of_mem hf)
      simp [hne, ih hkeys.2 hf]

/-- Every field that is still to come is new, and every other one that is required has been seen. -/
structure ToCome (shape : Shape α) (todo : List (Field α)) (seen : List String) : Prop where
  fields : ∀ f ∈ todo, f ∈ shape.fields
  distinct : (todo.map Field.key).Nodup
  new : ∀ f ∈ todo, f.key ∉ seen
  done : ∀ f ∈ shape.fields, f.required = true → f ∈ todo ∨ f.key ∈ seen

theorem ToCome.member {shape : Shape α} {f : Field α} {todo : List (Field α)} {seen : List String}
    (h : ToCome shape (f :: todo) seen) : ToCome shape todo (f.key :: seen) where
  fields := fun g hg => h.fields g (List.mem_cons_of_mem _ hg)
  distinct := (List.nodup_cons.mp h.distinct).2
  new := by
    intro g hg hseen
    rcases List.mem_cons.mp hseen with heq | hseen
    · exact (List.nodup_cons.mp h.distinct).1 (heq ▸ List.mem_map_of_mem hg)
    · exact h.new g (List.mem_cons_of_mem _ hg) hseen
  done := by
    intro g hg hrequired
    rcases h.done g hg hrequired with hmem | hseen
    · rcases List.mem_cons.mp hmem with rfl | hmem
      · exact .inr List.mem_cons_self
      · exact .inl hmem
    · exact .inr (List.mem_cons_of_mem _ hseen)

theorem ToCome.absent {shape : Shape α} {f : Field α} {todo : List (Field α)} {seen : List String}
    (h : ToCome shape (f :: todo) seen) (hf : f.required = false) : ToCome shape todo seen where
  fields := fun g hg => h.fields g (List.mem_cons_of_mem _ hg)
  distinct := (List.nodup_cons.mp h.distinct).2
  new := fun g hg => h.new g (List.mem_cons_of_mem _ hg)
  done := by
    intro g hg hrequired
    rcases h.done g hg hrequired with hmem | hseen
    · rcases List.mem_cons.mp hmem with rfl | hmem
      · exact absurd hrequired (by simp [hf])
      · exact .inl hmem
    · exact .inr hseen

theorem members_of_fills {shape : Shape α} (hkeys : (shape.fields.map Field.key).Nodup)
    {todo : List (Field α)} {ms : List (String × Value)} {a b : α} (h : Fills todo ms a b)
    {seen : List String} (htodo : ToCome shape todo seen) (first : Bool) {n : Nat}
    (hn : ms.length < n) (rest : List Char) :
    shape.members n first a seen (membersText first ms ++ rest) = .ok (b, rest) := by
  induction h generalizing seen first n with
  | absent hrequired _ ih => exact ih (htodo.absent hrequired) first hn
  | nil a =>
    obtain ⟨n, rfl⟩ := Nat.exists_eq_succ_of_ne_zero (Nat.ne_of_gt hn)
    -- No field is left, so none that is required has been missed.
    have hseen : shape.fields.find? (fun f => f.required && f.key ∉ seen) = none := by
      rw [List.find?_eq_none]
      intro f hf
      have hdone := htodo.done f hf
      simpa using hdone
    unfold members
    rw [nextKey_nil, ok_bind]
    dsimp only
    rw [hseen]
    rfl
  | @member f todo v ms a b c hread _ ih =>
    obtain ⟨n, rfl⟩ := Nat.exists_eq_succ_of_ne_zero (Nat.ne_zero_of_lt hn)
    have hfind := find?_key hkeys (htodo.fields f List.mem_cons_self)
    have hmember := member_of_find hfind (htodo.new f List.mem_cons_self) hread
      (ends_compactMembers ms rest)
    have htail : shape.members n false b (f.key :: seen) (Value.compactMembers ms ++ rest) =
        .ok (c, rest) := ih htodo.member false (Nat.lt_of_succ_lt_succ hn)
    unfold members
    rw [nextKey_cons, ok_bind]
    dsimp only
    rw [if_pos rfl, text_flatMap_writeChar, ok_bind]
    dsimp only
    rw [hmember, ok_bind]
    exact htail

end Shape

theorem reads_object {shape : Shape α} (hkeys : (shape.fields.map Field.key).Nodup)
    {ms : List (String × Value)} {a : α} (h : Fills shape.fields ms shape.blank a) :
    Reads shape.read (.object ms) a := by
  intro rest _
  unfold Shape.read
  rw [skipSpace_compact, compact_object]
  show shape.members ((membersText true ms ++ rest).length + 1) true shape.blank []
    (membersText true ms ++ rest) = _
  have htodo : Shape.ToCome shape shape.fields [] :=
    ⟨fun _ hf => hf, hkeys, fun _ _ => List.not_mem_nil, fun _ hf _ => .inl hf⟩
  apply Shape.members_of_fills hkeys h htodo
  have hlength := length_le_membersText ms
  rw [List.length_append]
  omega

end Tilewalk.Json
