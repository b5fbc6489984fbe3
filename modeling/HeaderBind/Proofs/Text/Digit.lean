import HeaderBind.Proofs.Text.Numeral

/-!
# `HeaderBind.Proofs.Text.Digit`: characters that stand for a digit

More characters stand for a digit than may be used in a numeral: superscripts and circled digits
are digits by their looks only. Neither kind is white space, a sign or an underscore
(`isMargin_of_isDigitLike`, by the tables of code points). So of a text of such characters nothing
is taken off before it is read, and `exists_read_iff` says when it is a numeral: if all of them are
decimal digits and there are not too many.
-/

set_option autoImplicit false

namespace HeaderBind

namespace Text

/-! ### Tables -/

theorem inRanges_iff {ranges : List (Nat × Nat)} {c : Char} :
    inRanges ranges c = true ↔ ∃ range ∈ ranges, range.1 ≤ c.toNat ∧ c.toNat ≤ range.2 := by
  simp only [inRanges, List.any_eq_true, Bool.and_eq_true, decide_eq_true_eq]

/-- Ranges that lie apart have no character in common. -/
theorem not_inRanges_of_apart {ranges others : List (Nat × Nat)} {c : Char}
    (hapart : ∀ range ∈ ranges, ∀ other ∈ others, range.2 < other.1 ∨ other.2 < range.1)
    (h : inRanges ranges c = true) : inRanges others c = false := by
  rw [← Bool.not_eq_true]
  intro hother
  obtain ⟨range, hrange, hlow, hhigh⟩ := inRanges_iff.mp h
  obtain ⟨other, hmem, hlow', hhigh'⟩ := inRanges_iff.mp hother
  have hranges := hapart range hrange other hmem
  omega

/-- The code points of decimal digits: ten from each zero on. -/
def decimalRanges : List (Nat × Nat) :=
  decimalZeros.map fun start => (start, start + 9)

theorem isDecimalDigit_iff {c : Char} :
    isDecimalDigit c = true ↔ inRanges decimalRanges c = true := by
  rw [isDecimalDigit, digitValue?, Option.isSome_map, List.find?_isSome, inRanges, decimalRanges,
    List.any_map, List.any_eq_true]
  simp only [Function.comp_apply, Bool.and_eq_true, decide_eq_true_eq]
  refine exists_congr fun start => and_congr_right fun _ => ?_
  omega

theorem isDigitLike_iff {c : Char} :
    isDigitLike c = true ↔ inRanges (decimalRanges ++ digitFormRanges) c = true := by
  rw [isDigitLike, Bool.or_eq_true, isDecimalDigit_iff, inRanges, inRanges, inRanges,
    List.any_append, Bool.or_eq_true]

theorem isDigitLike_of_isDecimalDigit {c : Char} (h : isDecimalDigit c = true) :
    isDigitLike c = true := by
  rw [isDigitLike, h, Bool.true_or]

/-- What stands for a digit is no white space. -/
theorem isBlank_of_isDigitLike {c : Char} (h : isDigitLike c = true) : isBlank c = false :=
  not_inRanges_of_apart (by decide +kernel) (isDigitLike_iff.mp h)

theorem isMargin_of_isDigitLike {c : Char} (h : isDigitLike c = true) :
    Numeral.isMargin c = false := by
  rw [Numeral.isMargin, isBlank_of_isDigitLike h, Bool.false_and]

/-- It is no sign and no underscore either. -/
theorem ne_of_isDigitLike {c d : Char} (h : isDigitLike c = true) (hd : isDigitLike d = false) :
    c ≠ d := by
  rintro rfl
  rw [h] at hd
  cases hd

end Text

namespace Numeral

open HeaderBind.Text

/-- A text without a sign in front has none to split off. -/
theorem splitSign_of_isDigitLike {cs : List Char} (h : ∀ c ∈ cs, isDigitLike c = true) :
    splitSign cs = (false, cs) := by
  cases cs with
  | nil => rfl
  | cons c cs =>
      have hc := h c List.mem_cons_self
      exact splitSign.eq_3 _
        (fun _ heq => ne_of_isDigitLike hc (by decide : isDigitLike '-' = false)
          (List.cons.inj heq).1)
        fun _ heq => ne_of_isDigitLike hc (by decide : isDigitLike '+' = false)
          (List.cons.inj heq).1

/-- Decimal digits have one value each. -/
theorem length_filterMap_digitValue? {cs : List Char} (h : ∀ c ∈ cs, isDecimalDigit c = true) :
    (cs.filterMap digitValue?).length = cs.length := by
  induction cs with
  | nil => rfl
  | cons c cs ih =>
      obtain ⟨hc, hcs⟩ := List.forall_mem_cons.mp h
      obtain ⟨value, hvalue⟩ := Option.isSome_iff_exists.mp hc
      rw [List.filterMap_cons, hvalue]
      simp [ih hcs]

/-- Nothing stands around characters that stand for a digit. -/
theorem trimBy_isMargin_of_isDigitLike {cs : List Char} (h : ∀ c ∈ cs, isDigitLike c = true) :
    trimBy isMargin (String.ofList cs).toList = cs := by
  rw [String.toList_ofList]
  exact trimBy_eq_self fun c hc => isMargin_of_isDigitLike (h c hc)

/-- A text of characters that stand for a digit has no sign, and neither has the number. -/
theorem nonneg_of_read {cs : List Char} {n : Int} (hlike : ∀ c ∈ cs, isDigitLike c = true)
    (h : read (String.ofList cs) = .ok n) : 0 ≤ n := by
  simp only [read, trimBy_isMargin_of_isDigitLike hlike, splitSign_of_isDigitLike hlike] at h
  split at h
  · cases h
  · split at h
    · cases h
    · split at h
      · cases h
      · cases h
        exact Int.natCast_nonneg _

/-- A text of characters that stand for a digit is a numeral when all of them are decimal digits and
there are not too many. -/
theorem exists_read_iff {cs : List Char} (hne : cs ≠ []) (hlike : ∀ c ∈ cs, isDigitLike c = true) :
    (∃ n, read (String.ofList cs) = .ok n)
      ↔ (∀ c ∈ cs, isDecimalDigit c = true) ∧ cs.length ≤ digitLimit := by
  have hbare := trimBy_isMargin_of_isDigitLike hlike
  have hunderscore : ∀ c ∈ cs, (isDecimalDigit c || c == '_') = isDecimalDigit c := by
    intro c hc
    have hne := ne_of_isDigitLike (hlike c hc) (by decide : isDigitLike '_' = false)
    simp [hne]
  have hrun (hall : ∀ c ∈ cs, isDecimalDigit c = true) :
      cs.takeWhile (fun c => isDecimalDigit c || c == '_') = cs :=
    List.takeWhile_eq_self_iff.mpr fun c hc => by rw [hunderscore c hc, hall c hc]
  constructor
  · rintro ⟨n, hn⟩
    simp only [read, hbare, splitSign_of_isDigitLike hlike] at hn
    split at hn
    · cases hn
    · split at hn
      · cases hn
      · rename_i hlength
        split at hn
        · cases hn
        · rename_i hrest
          -- Nothing is left behind the run of digits, so the run is the whole text.
          have hall : ∀ c ∈ cs, isDecimalDigit c = true := by
            intro c hc
            rw [← hunderscore c hc]
            simp only [Bool.not_eq_true, Bool.not_eq_false', List.isEmpty_iff,
              List.dropWhile_eq_nil_iff] at hrest
            exact hrest c hc
          rw [hrun hall, length_filterMap_digitValue? hall] at hlength
          exact ⟨hall, Nat.le_of_not_lt hlength⟩
  · rintro ⟨hall, hlength⟩
    have hrest : cs.dropWhile (fun c => isDecimalDigit c || c == '_') = [] :=
      List.dropWhile_eq_nil_iff.mpr fun c hc => by rw [hunderscore c hc, hall c hc]
    have hfit : underscoresFit false cs = true := by
      refine underscoresFit_of_forall_ne false (fun c hc => ?_) (.inr hne)
      exact ne_of_isDigitLike (hlike c hc) (by decide)
    have hcount : ¬ digitLimit < (cs.filterMap digitValue?).length := by
      rw [length_filterMap_digitValue? hall]
      omega
    simp only [read, hbare, splitSign_of_isDigitLike hlike, hrun hall, hrest, hfit, if_neg hcount]
    exact ⟨_, rfl⟩

end Numeral

end HeaderBind
