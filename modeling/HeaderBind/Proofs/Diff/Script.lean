import HeaderBind.Proofs.Diff.Run
import Mathlib.Data.List.Chain

/-!
# `HeaderBind.Proofs.Diff.Script`: a script turns one list into the other

The old sides of the segments of a script are the old list, line by line, and the new sides are the
new list (`old_script`, `new_script`). This holds of every cut, wherever it is made: what is kept is
common to both lists (`take_commonLength`), and what lies around it is cut by the same rule.

A script is `Alternating`: common lines and changes take turns, since common lines that touch are
put together and a cut never makes two changes in a row. There is no empty segment.

Equal lists have no change between them: `script_self`.
-/

set_option autoImplicit false

namespace HeaderBind.Diff

variable {frequent old new : List String}

/-! ### Both sides of a script -/

theorem old_replace (old new : List String) : (replace old new).flatMap Segment.old = old := by
  rw [replace]
  split
  · rename_i hempty
    simp only [Bool.and_eq_true, List.isEmpty_iff] at hempty
    rw [hempty.1]
    rfl
  · exact List.flatMap_singleton _ _

theorem new_replace (old new : List String) : (replace old new).flatMap Segment.new = new := by
  rw [replace]
  split
  · rename_i hempty
    simp only [Bool.and_eq_true, List.isEmpty_iff] at hempty
    rw [hempty.2]
    rfl
  · exact List.flatMap_singleton _ _

/-- A list is what lies in front of a place, some lines from there on, and what lies behind. -/
theorem take_append_take_drop_append_drop (lines : List String) (start length : Nat) :
    lines.take start ++ ((lines.drop start).take length ++ lines.drop (start + length))
      = lines := by
  rw [← List.drop_drop, List.take_append_drop, List.take_append_drop]

theorem old_cut (fuel : Nat) (old new : List String) :
    (cut frequent fuel old new).flatMap Segment.old = old := by
  induction fuel generalizing old new with
  | zero => exact old_replace old new
  | succ fuel ih =>
      rw [cut]
      split
      rename_i i j _
      dsimp only
      split
      · exact old_replace old new
      · rw [List.flatMap_append, List.flatMap_cons, ih, ih]
        exact take_append_take_drop_append_drop old i _

theorem new_cut (fuel : Nat) (old new : List String) :
    (cut frequent fuel old new).flatMap Segment.new = new := by
  induction fuel generalizing old new with
  | zero => exact new_replace old new
  | succ fuel ih =>
      rw [cut]
      split
      rename_i i j _
      dsimp only
      split
      · exact new_replace old new
      · rw [List.flatMap_append, List.flatMap_cons, ih, ih]
        -- The common lines were taken from the old list, and are the same in the new one.
        show _ ++ ((old.drop i).take _ ++ _) = _
        rw [take_commonLength]
        exact take_append_take_drop_append_drop new j _

/-- Putting common lines together that touch changes nothing on a side that has them in order. -/
theorem flatMap_foldr_consSegment {side : Segment → List String}
    (hside : ∀ lines more, side (.same (lines ++ more)) = side (.same lines) ++ side (.same more))
    (segments : List Segment) :
    (segments.foldr consSegment []).flatMap side = segments.flatMap side := by
  induction segments with
  | nil => rfl
  | cons segment rest ih =>
      have hcons : ∀ (segment : Segment) (joined : List Segment),
          (consSegment segment joined).flatMap side = side segment ++ joined.flatMap side := by
        intro segment joined
        unfold consSegment
        split
        · rw [List.flatMap_cons, List.flatMap_cons, hside]
          exact List.append_assoc _ _ _
        · rfl
      rw [List.foldr_cons, hcons, ih, List.flatMap_cons]

/-- The old sides of a script are the old list. -/
theorem old_script (old new : List String) : (script old new).flatMap Segment.old = old := by
  rw [script, flatMap_foldr_consSegment fun _ _ => rfl, old_cut]

/-- The new sides of a script are the new list. -/
theorem new_script (old new : List String) : (script old new).flatMap Segment.new = new := by
  rw [script, flatMap_foldr_consSegment fun _ _ => rfl, new_cut]

/-! ### Equal lists -/

theorem cut_nil_nil (frequent : List String) (fuel : Nat) : cut frequent fuel [] [] = [] := by
  cases fuel <;> rfl

/-- Equal lists have one run in common, and nothing else. -/
theorem cut_self (frequent : List String) (fuel : Nat) {lines : List String} (h : lines ≠ []) :
    cut frequent (fuel + 1) lines lines = [.same lines] := by
  have hlength : lines.length ≠ 0 := fun hzero => h (List.length_eq_zero_iff.mp hzero)
  rw [cut, runStart_self]
  simp only [List.drop_zero, List.take_zero, commonLength_self, Nat.zero_add, List.drop_length,
    List.take_length, cut_nil_nil, if_neg hlength]
  rfl

theorem script_self (lines : List String) :
    script lines lines = [] ∨ script lines lines = [.same lines] := by
  cases lines with
  | nil => exact .inl rfl
  | cons line lines =>
      rw [script, List.length_cons, cut_self _ _ (List.cons_ne_nil line lines)]
      exact .inr rfl

/-! ### Turns -/

namespace Segment

/-- Whether a segment is one of common lines. -/
def isSame : Segment → Bool
  | same _ => true
  | change _ _ => false

/-- Whether there is a line in a segment. -/
def Filled (segment : Segment) : Prop :=
  segment.old ≠ [] ∨ segment.new ≠ []

end Segment

/-- Segments that are not empty, common lines and changes taking turns. -/
structure Alternating (segments : List Segment) : Prop where
  turns : segments.IsChain fun segment next => segment.isSame ≠ next.isSame
  filled : ∀ segment ∈ segments, segment.Filled

theorem filled_replace (old new : List String) :
    ∀ segment ∈ replace old new, segment.Filled := by
  intro segment hsegment
  rw [replace] at hsegment
  split at hsegment
  · cases hsegment
  · rename_i hempty
    rw [List.mem_singleton.mp hsegment]
    by_contra hnone
    simp only [Segment.Filled, Segment.old, Segment.new, not_or, not_not] at hnone
    exact hempty (by simp [hnone])

/-- No segment of a cut is empty, and no two changes touch. -/
theorem chain_cut (fuel : Nat) (old new : List String) :
    (cut frequent fuel old new).IsChain (fun segment next => segment.isSame || next.isSame) ∧
      ∀ segment ∈ cut frequent fuel old new, segment.Filled := by
  have hreplace : ∀ old new : List String,
      (replace old new).IsChain (fun segment next => segment.isSame || next.isSame) := by
    intro old new
    rw [replace]
    split
    · exact .nil
    · exact .singleton _
  induction fuel generalizing old new with
  | zero => exact ⟨hreplace old new, filled_replace old new⟩
  | succ fuel ih =>
      rw [cut]
      split
      rename_i i j _
      dsimp only
      split
      · exact ⟨hreplace old new, filled_replace old new⟩
      · rename_i hlength
        obtain ⟨hfront, hfrontFilled⟩ := ih (old.take i) (new.take j)
        obtain ⟨hback, hbackFilled⟩ := ih (old.drop (i + commonLength (old.drop i) (new.drop j)))
          (new.drop (j + commonLength (old.drop i) (new.drop j)))
        constructor
        · -- Wherever the parts meet, the common lines stand on one side.
          rw [List.isChain_append, List.isChain_cons]
          refine ⟨hfront, ⟨fun _ _ => rfl, hback⟩, ?_⟩
          intro segment hsegment next hnext
          cases hnext
          exact Bool.or_true _
        · intro segment hsegment
          rcases List.mem_append.mp hsegment with hsegment | hsegment
          · exact hfrontFilled segment hsegment
          · rcases List.mem_cons.mp hsegment with rfl | hsegment
            · -- At least one line is common.
              have hle := commonLength_le (old.drop i) (new.drop j)
              refine .inl fun hnil => hlength ?_
              have hcount := congrArg List.length hnil
              simp only [Segment.old, List.length_take, List.length_nil] at hcount
              omega
            · exact hbackFilled segment hsegment

theorem Segment.Filled.append {lines : List String} (h : (same lines).Filled) (more : List String) :
    (same (lines ++ more)).Filled := by
  simp only [Filled, old, new] at h ⊢
  left
  intro hnil
  exact h.elim (· (List.append_eq_nil_iff.mp hnil).1) (· (List.append_eq_nil_iff.mp hnil).1)

/-- Putting common lines together that touch makes segments take turns. -/
theorem alternating_foldr {segments : List Segment}
    (hchain : segments.IsChain fun segment next => segment.isSame || next.isSame)
    (hfilled : ∀ segment ∈ segments, segment.Filled) :
    Alternating (segments.foldr consSegment []) ∧
      (segments.foldr consSegment []).head?.map Segment.isSame
        = segments.head?.map Segment.isSame := by
  induction segments with
  | nil => exact ⟨⟨.nil, nofun⟩, rfl⟩
  | cons segment rest ih =>
      obtain ⟨hfirst, hrest⟩ := List.isChain_cons.mp hchain
      obtain ⟨hsegment, hothers⟩ := List.forall_mem_cons.mp hfilled
      obtain ⟨⟨hturns, hjoined⟩, hhead⟩ := ih hrest hothers
      rw [List.foldr_cons]
      generalize rest.foldr consSegment [] = joined at hturns hjoined hhead ⊢
      -- In front of segments that start with the other kind, the segment stays as it is.
      have hcons : (∀ next ∈ joined.head?, segment.isSame ≠ next.isSame) →
          Alternating (segment :: joined) := fun hdifferent =>
        ⟨List.isChain_cons.mpr ⟨hdifferent, hturns⟩, List.forall_mem_cons.mpr ⟨hsegment, hjoined⟩⟩
      cases segment with
      | change removed added =>
          refine ⟨hcons fun next hnext => ?_, rfl⟩
          -- What follows a change is no change, also after putting together.
          rw [Option.mem_def.mp hnext] at hhead
          obtain ⟨other, hother, hkind⟩ := Option.map_eq_some_iff.mp hhead.symm
          have hsame := hfirst other hother
          rw [hkind] at hsame
          simpa [Segment.isSame] using hsame
      | same lines =>
          cases joined with
          | nil => exact ⟨hcons nofun, rfl⟩
          | cons next joined =>
              cases next with
              | change removed added =>
                  refine ⟨hcons fun next hnext => ?_, rfl⟩
                  cases hnext
                  exact Bool.noConfusion
              | same more =>
                  -- The segments become one, and what follows stays what it was.
                  obtain ⟨hnext, hafter⟩ := List.isChain_cons.mp hturns
                  refine ⟨⟨List.isChain_cons.mpr ⟨hnext, hafter⟩, ?_⟩, rfl⟩
                  exact List.forall_mem_cons.mpr
                    ⟨hsegment.append more, (List.forall_mem_cons.mp hjoined).2⟩

theorem alternating_script (old new : List String) : Alternating (script old new) := by
  obtain ⟨hchain, hfilled⟩ := @chain_cut (frequentLines new) old.length old new
  exact (alternating_foldr hchain hfilled).1

end HeaderBind.Diff
