import HeaderBind.Proofs.Artifact.Frame

/-!
# `HeaderBind.Proofs.Artifact.Apart`: two files that are not in each other's way

Writing a file makes the file and the directories in front of it. Where neither of two places is in
front of the other one (`Apart`), nothing of that is in the way of the second file
(`Updated.not_obstructed`): the new file does not lie in front of it, and at its place there is no
new directory. So two such files can be written one after the other if each of them can be written
alone, and the first one stays as it was written (`exists_write_after`).
-/

set_option autoImplicit false

namespace HeaderBind.Artifact

/-- Two paths neither of which leads through the place of the other one. -/
structure Apart (path other : Path) : Prop where
  notThrough : ¬ path.parts <+: other.parts
  notInFront : ¬ other.parts <+: path.parts

variable {host after : Host} {path other : Path} {text otherText : String}

/-- What lies at the place of the other file is not affected. -/
theorem Updated.node?_of_apart (h : Updated host path text after) (hapart : Apart path other) :
    after.tree.node? other.parts = host.tree.node? other.parts := by
  have hne : other.parts ≠ path.parts := fun heq => hapart.notInFront (heq ▸ List.prefix_rfl)
  rw [h.node, if_neg hne, if_neg hapart.notInFront]

/-- What is missing now was missing before. -/
theorem Updated.node?_eq_none_before (h : Updated host path text after) {place : Location}
    (hnone : after.tree.node? place = none) : host.tree.node? place = none := by
  rw [h.node] at hnone
  split at hnone
  · cases hnone
  · split at hnone
    · cases hnone
    · exact hnone

/-- What was written is not in the way of the other file. The text has to be one that is not empty:
where nothing is to be written, a long name below a directory that is new is the only obstacle. -/
theorem Updated.not_obstructed [Interpreter] (h : Updated host path text after)
    (hapart : Apart path other) (hclosed : host.tree.Closed) (htext : otherText ≠ "")
    (hfree : ¬ Obstructed host.tree other otherText) :
    ¬ Obstructed after.tree other otherText := by
  have hnode := h.node?_of_apart hapart
  rintro (⟨long | @⟨front, back, part, split, there, long⟩⟩ | there | ⟨there, refused⟩ |
    @⟨place, held, inFront, other', there, changed⟩ | ⟨mem, long, free, changed⟩ |
    ⟨⟨missed, hway, hnone, hlength⟩, changed⟩)
  · exact hfree (.long (.whole long))
  · -- The directory that the long name is looked up in was there before, or it was made.
    cases hbefore : host.tree.node? front with
    | some node =>
        have hdirectory : host.tree.node? front = some .directory := by
          rw [h.node] at there
          split at there
          · cases there
          · split at there
            · rename_i hne hway
              rcases h.front front hway hne with hfront | hfront
              · exact hfront
              · rw [hbefore] at hfront
                cases hfront
            · exact there
        exact hfree (.long (.component split hdirectory long))
    | none =>
        have hmissing : host.tree.node? other.parts = none :=
          hclosed.node?_eq_none_of_prefix hbefore (split ▸ List.prefix_append _ _)
        exact hfree (.name (split ▸ by simp) long hmissing htext)
  · exact hfree (.directory (hnode ▸ there))
  · exact hfree (.bytes (hnode ▸ there) refused)
  · -- The new file is not in front of the other one, and every other file was there before.
    rw [h.node] at there
    split at there
    · rename_i hplace
      exact hapart.notThrough (hplace ▸ inFront)
    · split at there
      · cases there
      · exact hfree (.file inFront other' there changed)
  · exact hfree (.name mem long (hnode ▸ free) changed)
  · exact hfree (.room ⟨missed, hway, h.node?_eq_none_before hnone, hlength⟩ changed)

/-- Two files that can each be written alone can be written one after the other, and the first one
stays as it was written. -/
theorem exists_write_after [Interpreter] (hclosed : host.tree.Closed) (hpath : path.IsResolved)
    (hother : other.IsResolved) (hapart : Apart path other) (htext : text ≠ "")
    (hotherText : otherText ≠ "") {made : ArtifactStatus × String}
    (h : write path text .apply host = .ok made after)
    (halone : ∃ made last, write other otherText .apply host = .ok made last) :
    ∃ made last, write other otherText .apply after = .ok made last ∧
      last.tree.node? path.parts = after.tree.node? path.parts := by
  obtain ⟨madeAlone, lastAlone, halone⟩ := halone
  have hfree : ¬ Obstructed host.tree other otherText := by
    intro hobstructed
    obtain ⟨error, refused, hrefused⟩ :=
      ((ended_write hclosed hother otherText).error_iff hclosed).mpr hobstructed
    rw [halone] at hrefused
    cases hrefused
  have hclosedAfter : after.tree.Closed := by
    have hbrought := broughtUp_write hclosed hpath htext
    rw [h] at hbrought
    cases hbrought with
    | done holds closed => exact closed
  have hfreeAfter : ¬ Obstructed after.tree other otherText := by
    have hended := ended_write hclosed hpath text
    rw [h] at hended
    cases hended with
    | unchanged short shows => exact hfree
    | updated clear changed updated => exact updated.not_obstructed hapart hclosed hotherText hfree
  have hlast := ended_write hclosedAfter hother otherText
  cases hwrite : write other otherText .apply after with
  | error error refused =>
      rw [hwrite] at hlast
      exact absurd ((hlast.error_iff hclosedAfter).mp ⟨error, refused, rfl⟩) hfreeAfter
  | ok madeLast last =>
      refine ⟨madeLast, last, rfl, ?_⟩
      rw [hwrite] at hlast
      cases hlast with
      | unchanged short shows => rfl
      | updated clear changed updated =>
          exact updated.node?_of_apart ⟨hapart.notInFront, hapart.notThrough⟩

end HeaderBind.Artifact
