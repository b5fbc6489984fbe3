import HeaderBind.Text.CodeText

/-!
# `HeaderBind.Proofs.Text.CodeText`: which texts are strings

A text by its code points has a string exactly when it is that of the string
(`asString_eq_ok_iff`). So every text is that of one string, or it cannot be encoded.
-/

set_option autoImplicit false

namespace HeaderBind.CodeText

/-- No character is half of a pair. -/
theorem isHalf_toNat (c : Char) : isHalf c.toNat = false := by
  rw [isHalf, Bool.and_eq_false_iff, decide_eq_false_iff_not, decide_eq_false_iff_not]
  rcases c.valid with h | ⟨h, -⟩
  · exact .inl (Nat.not_le_of_lt h)
  · exact .inr (Nat.not_lt_of_le (Nat.succ_le_of_lt h))

/-- A code point that is no half of a pair is that of a character. -/
theorem toNat_ofNat_of_isHalf {point : Nat} (hrange : point < 0x110000)
    (hhalf : isHalf point = false) : (Char.ofNat point).toNat = point := by
  rw [isHalf, Bool.and_eq_false_iff, decide_eq_false_iff_not, decide_eq_false_iff_not] at hhalf
  have hvalid : point.isValidChar := by
    rcases hhalf with h | h
    · exact .inl (Nat.lt_of_not_le h)
    · exact .inr ⟨by omega, hrange⟩
  rw [Char.ofNat, dif_pos hvalid]
  rfl

theorem asString_ofString (s : String) : (ofString s).asString = .ok s := by
  have hwhole : (ofString s).points.any isHalf = false := by
    rw [ofString, List.any_map, List.any_eq_false]
    rintro c -
    simp [isHalf_toNat]
  have hpoints : (ofString s).points.map Char.ofNat = s.toList := by
    rw [ofString, List.map_map]
    exact List.map_id'' Char.ofNat_toNat s.toList
  rw [asString, hwhole, hpoints, if_neg Bool.false_ne_true, String.ofList_toList]

theorem asString_eq_ok_iff {text : CodeText} {s : String} :
    text.asString = .ok s ↔ text = ofString s := by
  constructor
  · intro h
    obtain ⟨points, hrange⟩ := text
    rw [asString] at h
    split at h
    · cases h
    · rename_i hwhole
      cases h
      have hpoints : points.map (fun point => (Char.ofNat point).toNat) = points := by
        refine (List.map_congr_left fun point hpoint => ?_).trans points.map_id
        refine toNat_ofNat_of_isHalf (hrange point hpoint) (Bool.eq_false_iff.mpr fun hhalf => ?_)
        exact hwhole (List.any_eq_true.mpr ⟨point, hpoint, hhalf⟩)
      rw [ofString, CodeText.mk.injEq, String.toList_ofList, List.map_map]
      exact hpoints.symm
  · rintro rfl
    exact asString_ofString s

theorem ofString_injective {s t : String} (h : ofString s = ofString t) : s = t := by
  have hsame : (Except.ok s : Except Fault String) = .ok t := by
    rw [← asString_ofString s, h, asString_ofString t]
  exact Except.ok.inj hsame

end HeaderBind.CodeText
