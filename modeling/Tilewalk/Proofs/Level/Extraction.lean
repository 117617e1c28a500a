import Mathlib.Data.List.DropRight
import Tilewalk.Proofs.Level.Positional

/-! # Texts come out of links as they went in

Whatever has been escaped behind a base is taken out again. A level text that is no link is left as
it is: documents are told by their brace, and no positional program has a hash mark in it.
-/

namespace Tilewalk

/-! ## Trimmed texts -/

/-- What is behind the blanks in front does not begin with one, and neither does what is left of
it when the blanks at the end are taken off. -/
theorem Text.dropWhile_trim (cs : List Char) : (trim cs).dropWhile isBlank = trim cs := by
  have hprefix : trim cs <+: cs.dropWhile isBlank := List.rdropWhile_prefix isBlank _
  rcases htrim : trim cs with _ | ⟨c, rest⟩
  · rfl
  · obtain ⟨after, hafter⟩ := htrim ▸ hprefix
    have hc := List.head?_dropWhile_not isBlank cs
    rw [← hafter, List.cons_append, List.head?_cons] at hc
    exact List.dropWhile_cons_of_neg (by simp [hc])

theorem Text.trim_trim (cs : List Char) : trim (trim cs) = trim cs := by
  have hback : ((trim cs).reverse.dropWhile isBlank).reverse = trim cs :=
    List.rdropWhile_idempotent isBlank (cs.dropWhile isBlank)
  rw [trim, dropWhile_trim, hback]

/-! ## Positional programs -/

namespace Positional

theorem mark_not_mem_cellLetters (t : Option Tile) : '#' ∉ cellLetters t := by
  rcases t with _ | ⟨_ | _ | _ | ⟨_ | _ | _ | _⟩, o⟩
  all_goals first
    | decide
    | cases o <;> decide

/-- A link to a positional program cannot be mistaken for the program itself. -/
theorem mark_not_mem_of_decode {text : List Char} {p : Program} (h : decode text = .ok p) :
    '#' ∉ text := by
  obtain ⟨c, r, body, hwritten⟩ := exists_written h
  obtain ⟨cols, rows, rfl, hcols, hrows⟩ := hwritten.parts
  obtain ⟨tiles, -, rfl, -⟩ := hwritten.exists_tiles
  simp [hcols.not_mem, hrows.not_mem, mark_not_mem_cellLetters]

end Positional

/-! ## Texts that stand for themselves -/

namespace Level

theorem decode_trim (text : String) :
    decode (String.ofList (Text.trim text.toList)) = decode text := by
  unfold decode
  rw [String.toList_ofList, Text.trim_trim]

theorem positional_of_decode {text : String} {content : LevelContent}
    (h : decode text = .ok content)
    (hopening : Positional.opening.isPrefixOf (Text.trim text.toList) = true) :
    ∃ p, Positional.decode (Text.trim text.toList) = .ok p := by
  have hne : Text.trim text.toList ≠ [] := by
    intro hnil
    simp [hnil, Positional.opening] at hopening
  unfold decode at h
  dsimp only at h
  rw [if_neg hne, if_pos hopening] at h
  obtain ⟨p, hp, -⟩ := map_eq_ok.mp h
  exact ⟨p, mapError_eq_ok.mp hp⟩

theorem extract_of_decode {text : String} {content : LevelContent}
    (h : decode text = .ok content)
    (hstart : ['\x7b'] <+: Text.trim text.toList ∨
      Positional.opening <+: Text.trim text.toList) :
    extract text = .ok (String.ofList (Text.trim text.toList)) := by
  unfold extract
  dsimp only
  by_cases hbrace : ['\x7b'].isPrefixOf (Text.trim text.toList) = true
  · rw [if_pos hbrace]
  · have hopening : Positional.opening.isPrefixOf (Text.trim text.toList) = true :=
      List.isPrefixOf_iff_prefix.mpr
        (hstart.resolve_left fun hb => hbrace (List.isPrefixOf_iff_prefix.mpr hb))
    have hmark : '#' ∉ Text.trim text.toList := by
      obtain ⟨p, hp⟩ := positional_of_decode h hopening
      exact Positional.mark_not_mem_of_decode hp
    rw [if_neg hbrace, Text.cut?_eq_none_iff.mpr hmark]
    exact if_pos hopening

/-! ## The theorem -/

/-- Text that has been escaped behind a base is taken out trimmed, and so the document of a level
out of its link, whatever base and title hold, as long as the base does not begin with a brace. A
bare level text is read the same, whether it is first looked at as a link or not. -/
theorem texts_come_out_of_links :
    (∀ base text : String, '#' ∉ base.toList →
      (base.toList.dropWhile Text.isBlank).head? ≠ some '\x7b' →
      extract (base ++ "#" ++ Text.Percent.encode text) =
        .ok (String.ofList (Text.trim text.toList))) ∧
    (∀ (base : String) (l : Level),
      ((base.toList.takeWhile (· ≠ '#')).dropWhile Text.isBlank).head? ≠ some '\x7b' →
      extract (link base l) = .ok l.encode) ∧
    ∀ (text : String) (content : LevelContent), decode text = .ok content →
      ['\x7b'] <+: Text.trim text.toList ∨ ['l', 'v', 'l'] <+: Text.trim text.toList →
      extract text >>= decode = decode text := by
  refine ⟨fun base text hmark hbrace => ?_, fun base l hbrace => extract_link hbrace l,
    fun text content h hstart => ?_⟩
  · have hextract := extract_escaped hmark hbrace text
    rwa [String.ofList_toList] at hextract
  · rw [extract_of_decode h hstart, ok_bind, decode_trim]

theorem texts_come_out_of_links_with_marks :
    extract ("lvl/é?" ++ "#" ++ Text.Percent.encode " \"50%#41\"\n") = .ok "\"50%#41\"" ∧
      extract (link " lvl/é#old" (onGrid 3 1)) = .ok (onGrid 3 1).encode ∧
      extract " lvl1x2:....\n" >>= decode = .ok (.program (Program.emptyGrid 1 2)) := by
  obtain ⟨hescaped, hlink, hbare⟩ := texts_come_out_of_links
  have hread : decode " lvl1x2:....\n" = .ok (.program (Program.emptyGrid 1 2)) := rfl
  refine ⟨hescaped _ _ (by decide) (by decide), hlink _ _ (by decide), ?_⟩
  rw [hbare _ _ hread (.inr (by decide)), hread]

end Level

end Tilewalk
