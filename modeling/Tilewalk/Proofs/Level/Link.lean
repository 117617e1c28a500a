import Mathlib.Data.List.TakeWhile
import Mathlib.Tactic.SplitIfs
import Tilewalk.Proofs.Level.RoundTrip
import Tilewalk.Proofs.Text.Percent

/-! # Links lead back to their levels

The document of a level can be taken out of its link, unless the base of the link begins with a
brace: then the whole link is taken for a document.
-/

namespace Tilewalk

/-! ## Cutting and trimming -/

theorem Text.cut?_append {mark : Char} {before : List Char} (h : mark ∉ before)
    (after : List Char) : cut? mark (before ++ mark :: after) = some (before, after) := by
  induction before with
  | nil => simp [cut?]
  | cons c before ih =>
    simp only [List.mem_cons, not_or] at h
    rw [List.cons_append, cut?, if_neg (Ne.symm h.1), ih h.2]
    rfl

theorem Text.trim_append {before after : List Char} {c : Char} (hc : isBlank c = false)
    (hafter : ∀ d ∈ after, isBlank d = false) :
    trim (before ++ c :: after) = before.dropWhile isBlank ++ c :: after := by
  have hfront : (before ++ c :: after).dropWhile isBlank =
      before.dropWhile isBlank ++ c :: after := by
    rw [List.dropWhile_append, List.dropWhile_cons_of_neg (by simp [hc])]
    split_ifs with hnil
    · rw [List.isEmpty_iff.mp hnil, List.nil_append]
    · rfl
  have hback : ∀ d ∈ (c :: after).reverse, isBlank d = false := by
    intro d hd
    rcases List.mem_cons.mp (List.mem_reverse.mp hd) with rfl | hd
    · exact hc
    · exact hafter d hd
  unfold trim
  rw [hfront, List.reverse_append]
  rcases hlast : (c :: after).reverse with _ | ⟨d, ds⟩
  · simp at hlast
  · rw [hlast] at hback
    rw [List.cons_append, List.dropWhile_cons_of_neg (by simp [hback d List.mem_cons_self]),
      ← List.cons_append, ← hlast, List.reverse_append, List.reverse_reverse, List.reverse_reverse]

namespace Level

/-! ## What is behind the hash mark -/

/-- The base of a link that is not taken for a document. -/
def IsLinkBase (base : String) : Prop :=
  ((base.toList.takeWhile (· ≠ '#')).dropWhile Text.isBlank).head? ≠ some '\x7b'

instance (base : String) : Decidable (IsLinkBase base) :=
  inferInstanceAs (Decidable (_ ≠ _))

theorem unescape_escape (text : String) :
    unescape (Text.Percent.encode text).toList = .ok (String.ofList (Text.trim text.toList)) := by
  unfold unescape
  rw [String.ofList_toList, Text.Percent.decode_encode_text]

/-- The text that has been escaped behind a base is taken out of the link, blanks at its ends
apart. -/
theorem extract_escaped {base : List Char} (hmark : '#' ∉ base)
    (hbrace : (base.dropWhile Text.isBlank).head? ≠ some '\x7b') (text : String) :
    extract (String.ofList base ++ "#" ++ Text.Percent.encode text) =
      .ok (String.ofList (Text.trim text.toList)) := by
  have hchars : (String.ofList base ++ "#" ++ Text.Percent.encode text).toList =
      base ++ '#' :: (Text.Percent.encode text).toList := by
    simp [String.toList_append]
  have hblank : ∀ c ∈ (Text.Percent.encode text).toList, Text.isBlank c = false := by
    intro c hc
    rw [Text.Percent.encode, String.toList_ofList] at hc
    exact Text.Percent.not_isBlank_of_mem_escape hc
  have hfront : '#' ∉ base.dropWhile Text.isBlank := fun h =>
    hmark ((List.dropWhile_sublist _).subset h)
  unfold extract
  dsimp only
  -- The trimmed link does not begin with a brace, so it is cut at its first hash mark.
  rw [hchars, Text.trim_append (by decide) hblank, if_neg, Text.cut?_append hfront]
  · exact unescape_escape text
  · rcases hbase : base.dropWhile Text.isBlank with _ | ⟨c, cs⟩
    · simp
    · rw [hbase] at hbrace
      have hc : c ≠ '\x7b' := fun h => hbrace (by rw [h, List.head?_cons])
      simp [List.isPrefixOf, hc.symm]

/-! ## Links -/

theorem trim_encode (l : Level) : Text.trim l.encode.toList = l.encode.toList := by
  obtain ⟨cs, hcs⟩ : ∃ cs, l.encode.toList = '\x7b' :: (cs ++ ['\x7d']) := by
    rw [encode, String.toList_ofList]
    exact Json.compact_object_closed _
  rw [hcs, Text.trim_of_ends cs (by decide) (by decide)]

theorem extract_link {base : String} (h : IsLinkBase base) (l : Level) :
    extract (link base l) = .ok l.encode := by
  have hmark : '#' ∉ base.toList.takeWhile (· ≠ '#') := by
    intro hmem
    simpa using List.mem_takeWhile_imp hmem
  unfold link
  rw [extract_escaped hmark h, trim_encode, String.ofList_toList]

theorem decode_extract_link {base : String} (h : IsLinkBase base) {l : Level}
    (hwell : l.program.WellFormed) (hne : l.program.start.position ≠ l.program.goal.position) :
    extract (link base l) >>= Level.decode = .ok (.level l.restarted) := by
  rw [extract_link h, ok_bind, decode_encode_eq hwell, toLevel_ofLevel hwell hne]
  rfl

theorem decode_extract_link_of_brace (l : Level) :
    extract (link "\x7b" l) >>= Level.decode = .error (.json .keyNotText) := by
  have hchars : (link "\x7b" l).toList =
      '\x7b' :: '#' :: (Text.Percent.encode l.encode).toList := by
    simp [link, String.toList_append]
  have hblank : ∀ c ∈ '#' :: (Text.Percent.encode l.encode).toList, Text.isBlank c = false := by
    intro c hc
    rcases List.mem_cons.mp hc with rfl | hc
    · decide
    · rw [Text.Percent.encode, String.toList_ofList] at hc
      exact Text.Percent.not_isBlank_of_mem_escape hc
  have htrim := @Text.trim_append [] _ '\x7b' (by decide) hblank
  rw [List.nil_append, List.dropWhile_nil, List.nil_append] at htrim
  have hextract : extract (link "\x7b" l) = .ok (link "\x7b" l) := by
    unfold extract
    dsimp only
    rw [hchars, htrim, if_pos (by simp), ← hchars, String.ofList_toList]
  rw [hextract, ok_bind]
  unfold Level.decode
  dsimp only
  rw [hchars, htrim, if_neg (by simp), if_neg (by simp [Positional.opening])]
  rfl

end Level

end Tilewalk
