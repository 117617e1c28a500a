import Tilewalk.Json.Reader
import Tilewalk.Proofs.Json.Token

/-! # Values are read as they are written

A reader that reads a value stops where the value ends. So the readers of lists and records read
theirs when those of the parts do.
-/

namespace Tilewalk.Json

variable {α β : Type}

/-- The reader takes the value for `a`, whatever stands behind it. -/
def Reads (read : Read α) (v : Value) (a : α) : Prop :=
  ∀ rest, Ends rest → read (v.compact ++ rest) = .ok (a, rest)

/-! ## How values start -/

theorem writeInteger_cons (n : Int) :
    ∃ c cs, writeInteger n = c :: cs ∧ (c = '-' ∨ c.isDigit = true) := by
  obtain ⟨d, ds, hd⟩ := List.exists_cons_of_ne_nil (Number.digits_ne_nil n.natAbs)
  unfold writeInteger
  split_ifs
  · exact ⟨_, _, rfl, .inl rfl⟩
  · exact ⟨d, ds, hd, .inr (Number.isDigit_of_mem_digits (n := n.natAbs) (by simp [hd]))⟩

theorem isSpace_of_digit {c : Char} (h : c = '-' ∨ c.isDigit = true) :
    isSpace c = false ∧ c ≠ ']' := by
  have hne : ∀ d : Char, d ≠ '-' → d.isDigit = false → c ≠ d := by
    rintro d hminus hdigit rfl
    rw [hdigit] at h
    simp [hminus] at h
  refine ⟨?_, hne _ (by decide) (by decide)⟩
  unfold isSpace
  simp [hne]

theorem compact_cons (v : Value) :
    ∃ c cs, v.compact = c :: cs ∧ isSpace c = false ∧ c ≠ ']' := by
  cases v with
  | null => exact ⟨'n', _, rfl, by decide, by decide⟩
  | boolean b => cases b <;> exact ⟨_, _, rfl, by decide, by decide⟩
  | integer n =>
    obtain ⟨c, cs, h, hc⟩ := writeInteger_cons n
    exact ⟨c, cs, h, isSpace_of_digit hc⟩
  | text cs => exact ⟨'"', _, rfl, by decide, by decide⟩
  | list vs => cases vs <;> exact ⟨'[', _, by rw [Value.compact], by decide, by decide⟩
  | object ms => cases ms <;> exact ⟨'\x7b', _, by rw [Value.compact], by decide, by decide⟩

theorem skipSpace_cons {c : Char} (h : isSpace c = false) (cs : List Char) :
    skipSpace (c :: cs) = c :: cs := by
  simp [skipSpace, h]

theorem skipSpace_compact (v : Value) (rest : List Char) :
    skipSpace (v.compact ++ rest) = v.compact ++ rest := by
  obtain ⟨c, cs, h, hspace, -⟩ := compact_cons v
  rw [h, List.cons_append, skipSpace_cons hspace]

theorem compact_text (cs rest : List Char) :
    (Value.text cs).compact ++ rest = '"' :: (cs.flatMap writeChar ++ '"' :: rest) := by
  simp [Value.compact, writeText]

/-! ## Plain values -/

theorem reads_text (cs : List Char) : Reads readText (.text cs) cs := by
  intro rest _
  unfold readText
  rw [skipSpace_compact, compact_text]
  exact text_flatMap_writeChar cs rest

theorem reads_boolean (b : Bool) : Reads readBoolean (.boolean b) b := by
  intro rest _
  cases b <;> rfl

theorem reads_quantity (expected : String) {n : Int} (hlow : -0x8000000000000000 ≤ n)
    (hhigh : n < 0x10000000000000000) :
    Reads (readQuantity expected) (.integer n) (.integer n) := by
  intro rest hrest
  obtain ⟨c, cs, h, hc⟩ := writeInteger_cons n
  have hcompact : (Value.integer n).compact = c :: cs := by rw [Value.compact, h]
  have hquantity := quantity_writeInteger hlow hhigh hrest
  rw [h, List.cons_append] at hquantity
  unfold readQuantity
  rw [skipSpace_compact, hcompact, List.cons_append]
  dsimp only
  rw [if_pos hc, hquantity]

theorem reads_integer (expected : String) {low high n : Int} (h : low ≤ n ∧ n ≤ high)
    (hlow : -0x8000000000000000 ≤ low) (hhigh : high < 0x10000000000000000) :
    Reads (readInteger expected low high) (.integer n) n := by
  intro rest hrest
  have hquantity := reads_quantity expected (n := n) (by omega) (by omega) rest hrest
  unfold readInteger
  rw [hquantity, ok_bind]
  dsimp only
  rw [if_pos h]

theorem reads_int32 {n : Int} (h : -0x80000000 ≤ n ∧ n ≤ 0x7fffffff) :
    Reads readInt32 (.integer n) n :=
  reads_integer "i32" h (by decide) (by decide)

theorem reads_nat32 {n : Nat} (h : n < 0x100000000) : Reads readNat32 (.integer n) n := by
  intro rest hrest
  have hrange : (0 : Int) ≤ n ∧ (n : Int) ≤ 0xffffffff := by omega
  have hinteger := reads_integer "u32" hrange (by decide) (by decide) rest hrest
  unfold readNat32
  rw [hinteger, ok_bind]
  rfl

theorem reads_variant {names : List (String × α)} {name : List Char} {a : α}
    (h : variant names name = .ok a) : Reads (readVariant names) (.text name) a := by
  intro rest _
  unfold readVariant
  rw [skipSpace_compact, compact_text]
  show (text _ >>= fun r => variant names r.1 >>= fun a => .ok (a, r.2)) = _
  rw [text_flatMap_writeChar, ok_bind, h, ok_bind]

/-! ## Lists -/

/-- What stands behind the opening bracket, or behind an item when `first` does not hold. -/
def itemsText (first : Bool) (vs : List Value) : List Char :=
  match first, vs with
  | true, v :: vs => v.compact ++ Value.compactItems vs
  | _, vs => Value.compactItems vs

theorem compact_list (vs : List Value) : (Value.list vs).compact = '[' :: itemsText true vs := by
  cases vs <;> simp [itemsText, Value.compact, Value.compactItems]

theorem ends_compactItems (vs : List Value) (rest : List Char) :
    Ends (Value.compactItems vs ++ rest) := by
  cases vs with
  | nil => exact .bracket _
  | cons v vs => exact .comma _

theorem length_le_compactItems (vs : List Value) :
    vs.length < (Value.compactItems vs).length := by
  induction vs with
  | nil => exact Nat.one_pos
  | cons v vs ih =>
    rw [Value.compactItems, List.length_cons, List.length_cons, List.length_append]
    omega

theorem length_le_itemsText (vs : List Value) : vs.length ≤ (itemsText true vs).length := by
  cases vs with
  | nil => exact Nat.zero_le _
  | cons v vs =>
    have hitems := length_le_compactItems vs
    rw [itemsText, List.length_cons, List.length_append]
    omega

theorem nextElement_nil (first : Bool) (rest : List Char) :
    nextElement first (itemsText first [] ++ rest) = .ok (false, rest) := by
  cases first <;> rfl

theorem nextElement_cons (first : Bool) (v : Value) (vs : List Value) (rest : List Char) :
    nextElement first (itemsText first (v :: vs) ++ rest) =
      .ok (true, v.compact ++ (Value.compactItems vs ++ rest)) := by
  obtain ⟨c, cs, h, hspace, hclose⟩ := compact_cons v
  cases first with
  | true =>
    rw [itemsText, List.append_assoc, h, List.cons_append]
    simp [nextElement, skipSpace_cons hspace]
  | false =>
    show nextElement false (Value.compactItems (v :: vs) ++ rest) = _
    rw [Value.compactItems, List.cons_append, List.append_assoc, h, List.cons_append]
    simp [nextElement, skipSpace_cons (c := ',') rfl, skipSpace_cons hspace, hclose]

theorem elements_itemsText {read : Read β} {write : β → Value} {items : List β}
    (h : ∀ b ∈ items, Reads read (write b) b) (first : Bool) {n : Nat} (hn : items.length < n)
    (rest : List Char) :
    elements read n first (itemsText first (items.map write) ++ rest) = .ok (items, rest) := by
  induction items generalizing n first with
  | nil =>
    obtain ⟨n, rfl⟩ := Nat.exists_eq_succ_of_ne_zero (Nat.ne_of_gt hn)
    unfold elements
    rw [List.map_nil, nextElement_nil, ok_bind]
    rfl
  | cons b items ih =>
    obtain ⟨n, rfl⟩ := Nat.exists_eq_succ_of_ne_zero (Nat.ne_zero_of_lt hn)
    have hread := h b List.mem_cons_self _ (ends_compactItems (items.map write) rest)
    have htail : elements read n false (Value.compactItems (items.map write) ++ rest) =
        .ok (items, rest) :=
      ih (fun b hb => h b (List.mem_cons_of_mem _ hb)) false (Nat.lt_of_succ_lt_succ hn)
    unfold elements
    rw [List.map_cons, nextElement_cons, ok_bind]
    dsimp only
    rw [if_pos rfl, hread, ok_bind]
    dsimp only
    rw [htail, ok_bind]

theorem reads_list {read : Read β} {write : β → Value} {items : List β}
    (h : ∀ b ∈ items, Reads read (write b) b) :
    Reads (readList read) (.list (items.map write)) items := by
  intro rest _
  unfold readList
  rw [skipSpace_compact, compact_list]
  show elements read ((itemsText true _ ++ rest).length + 1) true (itemsText true _ ++ rest) = _
  apply elements_itemsText h
  have hlength := length_le_itemsText (items.map write)
  rw [List.length_map] at hlength
  rw [List.length_append]
  omega

theorem reads_option_list {read : Read α} {vs : List Value} {a : α}
    (h : Reads read (.list vs) a) : Reads (readOption read) (.list vs) (some a) := by
  intro rest hrest
  have hread := h rest hrest
  unfold readOption
  rw [skipSpace_compact]
  rw [compact_list] at hread ⊢
  show (read ('[' :: itemsText true vs ++ rest) >>= fun r => .ok (some r.1, r.2)) = _
  rw [hread, ok_bind]

theorem reads_option_null (read : Read α) : Reads (readOption read) .null none := fun _ _ => rfl

end Tilewalk.Json
