import Mathlib.Data.List.Basic
import HeaderBind.Proofs.Text.Ascii

/-!
# `HeaderBind.Proofs.Name`: what the tests of names establish

The tests judge a text up to one line feed at its end, so what passes is an identifier, or one with
a line feed behind it (`isName_iff`), and nothing blank stands at either end of the rest. That is
all that trimming needs to know: it takes away the line feed and nothing else, and what is left of
the name of a structure without the word in front is an identifier, nothing before or after it
(`isIdentifier_structBase`).
-/

set_option autoImplicit false

namespace HeaderBind

namespace Name

open HeaderBind.Text

/-! ### The line feed at the end -/

/-- A text is what is judged of it, or that and a line feed. -/
theorem eq_dropFinalNewline (cs : List Char) :
    cs = dropFinalNewline cs ∨ cs = dropFinalNewline cs ++ ['\n'] := by
  unfold dropFinalNewline
  split
  · -- A line feed is dropped, and it was the last character.
    rename_i hlast
    obtain ⟨before, rfl⟩ := List.getLast?_eq_some_iff.mp hlast
    exact Or.inr (by rw [List.dropLast_concat])
  · exact Or.inl rfl

/-- The line feed is white space, so trimming takes it away anyway. -/
theorem trimChars_dropFinalNewline (cs : List Char) :
    trimChars (dropFinalNewline cs) = trimChars cs := by
  rcases eq_dropFinalNewline cs with h | h
  · rw [← h]
  · have hfeed : isBlank '\n' = true := by decide
    calc trimChars (dropFinalNewline cs)
        = trimChars (dropFinalNewline cs ++ ['\n']) := (trimBy_append_singleton _ hfeed).symm
      _ = trimChars cs := by rw [← h]

theorem not_mem_of_isIdentifier {cs : List Char} {c : Char} (h : isIdentifier cs = true)
    (hc : isNameChar c = false) : c ∉ cs :=
  fun hmem => ne_of_isNameChar ((isNameChar_of_isIdentifier h).2 c hmem) hc rfl

/-- A name is an identifier, possibly with a line feed behind it. -/
theorem isName_iff {s : String} :
    isName s = true ↔ isIdentifier s.toList = true ∨
      ∃ cs, s.toList = cs ++ ['\n'] ∧ isIdentifier cs = true := by
  constructor
  · intro h
    rcases eq_dropFinalNewline s.toList with hsame | hfeed
    · exact Or.inl (hsame ▸ h)
    · exact Or.inr ⟨_, hfeed, h⟩
  · rintro (h | ⟨cs, hcs, h⟩)
    · -- An identifier does not end with a line feed, so nothing is dropped.
      have hlast : s.toList.getLast? ≠ some '\n' := fun heq =>
        not_mem_of_isIdentifier h (by decide) (List.mem_of_getLast? heq)
      rw [isName, dropFinalNewline, if_neg hlast]
      exact h
    · rw [isName, dropFinalNewline, hcs, if_pos (by simp), List.dropLast_concat]
      exact h

theorem isName_of_isIdentifier {s : String} (h : isIdentifier s.toList = true) :
    isName s = true :=
  isName_iff.mpr (Or.inl h)

/-! ### The ends of a name -/

/-- Characters that trimming leaves as they are, and that are not all blank. -/
structure Bare (cs : List Char) : Prop where
  first : ∀ c, cs.head? = some c → isBlank c = false
  last : ∀ c, cs.getLast? = some c → isBlank c = false
  nonempty : cs ≠ []

theorem Bare.trimChars {cs : List Char} (h : Bare cs) : trimChars cs = cs :=
  trimBy_eq_self_of_ends h.first h.last

theorem bare_of_isIdentifier {cs : List Char} (h : isIdentifier cs = true) : Bare cs := by
  have hbare : ∀ c ∈ cs, isBlank c = false := fun c hc =>
    isBlank_of_isVisible (visible_of_isIdentifier h c hc)
  exact ⟨fun c hc => hbare c (List.mem_of_head? hc), fun c hc => hbare c (List.mem_of_getLast? hc),
    (isNameChar_of_isIdentifier h).1⟩

/-- What passes for a text with a bare one in it is not blank. -/
theorem not_isBlankText_of_bare {s : String} (h : Bare (dropFinalNewline s.toList)) :
    isBlankText s = false := by
  obtain ⟨c, rest, hcs⟩ := List.exists_cons_of_ne_nil h.nonempty
  have hc : isBlank c = false := h.first c (by rw [hcs, List.head?_cons])
  have hmem : c ∈ s.toList := by
    have hin : c ∈ dropFinalNewline s.toList := by
      rw [hcs]
      exact List.mem_cons_self
    rcases eq_dropFinalNewline s.toList with heq | heq
    · rw [heq]
      exact hin
    · rw [heq]
      exact List.mem_append_left _ hin
  refine Bool.eq_false_iff.mpr fun hall => ?_
  rw [List.all_eq_true.mp hall c hmem] at hc
  cases hc

theorem not_isBlankText_of_isName {s : String} (h : isName s = true) : isBlankText s = false :=
  not_isBlankText_of_bare (bare_of_isIdentifier h)

theorem ne_empty_of_isName {s : String} (h : isName s = true) : s ≠ "" := by
  rintro rfl
  cases h

theorem ne_empty_of_isModuleName {s : String} (h : isModuleName s = true) : s ≠ "" := by
  rintro rfl
  cases h

/-! ### Names of structures -/

/-- What the word in front of a name is: the word itself and at least one blank. -/
theorem afterStructTag?_eq_some_iff {cs base : List Char} :
    afterStructTag? cs = some base
      ↔ ∃ c rest, cs = structTag ++ c :: rest ∧ isBlank c = true ∧
        rest.dropWhile isBlank = base := by
  unfold afterStructTag?
  constructor
  · intro h
    split at h
    · rename_i c rest htag
      split at h
      · rename_i hc
        exact ⟨c, rest, (List.isPrefixOf?_eq_some_iff_append_eq.mp htag).symm, hc,
          Option.some.inj h⟩
      · cases h
    · cases h
  · rintro ⟨c, rest, rfl, hc, rfl⟩
    rw [List.isPrefixOf?_eq_some_iff_append_eq.mpr rfl]
    exact if_pos hc

/-- The word in front of a name has a blank behind it, so it is no part of an identifier. -/
theorem afterStructTag?_of_isIdentifier {cs : List Char} (h : isIdentifier cs = true) :
    afterStructTag? cs = none := by
  refine Option.eq_none_iff_forall_ne_some.mpr fun base htag => ?_
  obtain ⟨c, rest, rfl, hc, -⟩ := afterStructTag?_eq_some_iff.mp htag
  have hvisible := visible_of_isIdentifier h c (by simp)
  rw [isBlank_of_isVisible hvisible] at hc
  cases hc

/-- What is judged of the name of a structure is an identifier, or the word, blanks and an
identifier. -/
theorem isStructName_iff {s : String} :
    isStructName s = true ↔ isIdentifier (dropFinalNewline s.toList) = true ∨
      ∃ base, afterStructTag? (dropFinalNewline s.toList) = some base ∧
        isIdentifier base = true := by
  rw [isStructName, Bool.or_eq_true, Option.any_eq_true]

theorem bare_of_isStructName {s : String} (h : isStructName s = true) :
    Bare (dropFinalNewline s.toList) := by
  rcases isStructName_iff.mp h with h | ⟨base, htag, hbase⟩
  · exact bare_of_isIdentifier h
  · obtain ⟨c, rest, hcs, -, hrest⟩ := afterStructTag?_eq_some_iff.mp htag
    have hbare := bare_of_isIdentifier hbase
    have hsplit : rest = rest.takeWhile isBlank ++ base := by
      rw [← hrest, List.takeWhile_append_dropWhile]
    rw [hcs, hsplit]
    refine ⟨?_, ?_, by simp⟩
    · intro d hd
      cases hd
      decide
    · -- The text ends with the identifier, which is not empty.
      intro d hd
      refine hbare.last d ?_
      obtain ⟨last, hlast⟩ := Option.isSome_iff_exists.mp
        (List.getLast?_isSome.mpr hbare.nonempty)
      rw [← List.cons_append, ← List.append_assoc, List.getLast?_append, hlast,
        Option.some_or] at hd
      rw [hlast, hd]

theorem not_isBlankText_of_isStructName {s : String} (h : isStructName s = true) :
    isBlankText s = false :=
  not_isBlankText_of_bare (bare_of_isStructName h)

/-- The base of a structure's name is an identifier, nothing before or after it. -/
theorem isIdentifier_structBase {s : String} (h : isStructName s = true) :
    isIdentifier (structBase s).toList = true := by
  have htrim : trimChars s.toList = dropFinalNewline s.toList := by
    rw [← trimChars_dropFinalNewline, (bare_of_isStructName h).trimChars]
  rw [structBase, String.toList_ofList, htrim]
  rcases isStructName_iff.mp h with h | ⟨base, htag, hbase⟩
  · rw [afterStructTag?_of_isIdentifier h]
    exact h
  · rw [htag]
    exact hbase

end Name

end HeaderBind
