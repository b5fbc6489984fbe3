import HeaderBind.Diff.Hunk
import HeaderBind.Proofs.Diff.Patch
import HeaderBind.Proofs.Diff.Script

/-!
# `HeaderBind.Proofs.Diff.Hunk`: the hunks of a script as a patch

The hunks of a script leave out nothing but common lines. `Covers` says so: walking through both
lists, one comes to each hunk over lines that both have, at the place that the hunk names, and
behind the last hunk both lists are the same. `continued_collect` follows an open hunk through the
rest of the script, and `covers_hunks` is the result for a script.

Everything that a patch has to get right follows from that walk, by induction over it: the ranges
(`Covers.exact`), their order (`Covers.pairwise`), and that the patch turns the old list into the
new one (`Covers.applyHunks`).
-/

set_option autoImplicit false

namespace HeaderBind.Diff

/-! ### Hunks as they are read -/

/-- The lines of a segment with their marks. -/
def Segment.entries : Segment → List (Mark × String)
  | same lines => lines.map (.common, ·)
  | change removed added => removed.map (.removed, ·) ++ added.map (.added, ·)

/-- The lines of segments with their marks. -/
def entriesOf (segments : List Segment) : List (Mark × String) :=
  segments.flatMap Segment.entries

/-- A hunk as it is read from a patch. -/
def Hunk.patch (hunk : Hunk) : PatchHunk :=
  ⟨hunk.oldStart, hunk.old.length, hunk.newStart, hunk.new.length, entriesOf hunk.segments⟩

theorem linesWithout_append (mark : Mark) (entries more : List (Mark × String)) :
    linesWithout mark (entries ++ more) = linesWithout mark entries ++ linesWithout mark more := by
  simp [linesWithout]

/-- Lines that all have one mark are left out together or not at all. -/
theorem linesWithout_map (mark other : Mark) (lines : List String) :
    linesWithout mark (lines.map (other, ·)) = if other = mark then [] else lines := by
  by_cases h : other = mark <;> simp [linesWithout, List.filter_map, Function.comp_def, h]

theorem oldLines_entries (segment : Segment) : oldLines segment.entries = segment.old := by
  cases segment with
  | same lines => exact linesWithout_map .added .common lines
  | change removed added =>
      show linesWithout .added (_ ++ _) = removed
      rw [linesWithout_append, linesWithout_map, linesWithout_map]
      exact List.append_nil removed

theorem newLines_entries (segment : Segment) : newLines segment.entries = segment.new := by
  cases segment with
  | same lines => exact linesWithout_map .removed .common lines
  | change removed added =>
      show linesWithout .removed (_ ++ _) = added
      rw [linesWithout_append, linesWithout_map, linesWithout_map]
      rfl

/-- If a side of each segment is its lines without a mark, so it is for segments in a row. -/
theorem linesWithout_entriesOf {mark : Mark} {side : Segment → List String}
    (h : ∀ segment, linesWithout mark segment.entries = side segment) (segments : List Segment) :
    linesWithout mark (entriesOf segments) = segments.flatMap side := by
  induction segments with
  | nil => rfl
  | cons segment rest ih =>
      rw [entriesOf, List.flatMap_cons, linesWithout_append, h, ← entriesOf, ih, List.flatMap_cons]

theorem oldLines_entriesOf (segments : List Segment) :
    oldLines (entriesOf segments) = segments.flatMap Segment.old :=
  linesWithout_entriesOf oldLines_entries segments

theorem newLines_entriesOf (segments : List Segment) :
    newLines (entriesOf segments) = segments.flatMap Segment.new :=
  linesWithout_entriesOf newLines_entries segments

/-! ### Walking through both lists -/

/-- From two positions on, the lists differ in the hunks only. In front of a hunk stand common
lines, and at least one unless it is the first hunk. -/
inductive Covers : (isFirst : Bool) → (oldCount newCount : Nat) → List Hunk →
    (old new : List String) → Prop
  | done {isFirst : Bool} {oldCount newCount : Nat} (common : List String) :
      Covers isFirst oldCount newCount [] common common
  | hunk {isFirst : Bool} {oldCount newCount : Nat} {hunk : Hunk} {later : List Hunk}
      {old new : List String} (common : List String) (apart : isFirst = true ∨ common ≠ [])
      (oldStart : hunk.oldStart = oldCount + common.length)
      (newStart : hunk.newStart = newCount + common.length)
      (rest : Covers false (hunk.oldStart + hunk.old.length) (hunk.newStart + hunk.new.length) later
        old new) :
      Covers isFirst oldCount newCount (hunk :: later) (common ++ hunk.old ++ old)
        (common ++ hunk.new ++ new)

namespace Covers

variable {isFirst : Bool} {oldCount newCount : Nat} {hunks : List Hunk} {old new : List String}

/-- Without hunks, both lists are the same. -/
theorem eq_of_nil (h : Covers isFirst oldCount newCount [] old new) : old = new := by
  cases h
  rfl

/-- The hunks start behind the positions, and behind a further line unless they come first. -/
theorem start_le (h : Covers isFirst oldCount newCount hunks old new) :
    ∀ hunk ∈ hunks, oldCount ≤ hunk.oldStart ∧ newCount ≤ hunk.newStart ∧
      (isFirst = false → oldCount < hunk.oldStart ∧ newCount < hunk.newStart) := by
  induction h with
  | done common => exact nofun
  | hunk common apart oldStart newStart rest ih =>
      refine List.forall_mem_cons.mpr ⟨?_, fun other hother => ?_⟩
      · refine ⟨by omega, by omega, ?_⟩
        rintro rfl
        have hlength := List.length_pos_iff.mpr (apart.resolve_left Bool.false_ne_true)
        omega
      · obtain ⟨-, -, hlater⟩ := ih other hother
        have hbehind := hlater rfl
        omega

/-- The hunks stand in order, with lines between them. -/
theorem pairwise (h : Covers isFirst oldCount newCount hunks old new) :
    (hunks.map Hunk.patch).Pairwise PatchHunk.Before := by
  induction h with
  | done common => exact .nil
  | hunk common apart oldStart newStart rest ih =>
      refine List.pairwise_cons.mpr ⟨fun next hnext => ?_, ih⟩
      obtain ⟨other, hother, rfl⟩ := List.mem_map.mp hnext
      exact (rest.start_le other hother).2.2 rfl

/-- The ranges of the hunks are exact, when as many lines stand in front as the positions say. -/
theorem exact (h : Covers isFirst oldCount newCount hunks old new) (oldFront newFront : List String)
    (hold : oldFront.length = oldCount) (hnew : newFront.length = newCount) :
    ∀ hunk ∈ hunks, hunk.patch.Exact (oldFront ++ old) (newFront ++ new) := by
  induction h generalizing oldFront newFront with
  | done common => exact nofun
  | @hunk isFirst oldCount newCount hunk later old new common apart oldStart newStart rest ih =>
      -- The hunk holds what stands behind the common lines.
      have hstands : ∀ {front own later : List String} {start : Nat},
          start = front.length + common.length →
            ((front ++ (common ++ own ++ later)).drop start).take own.length = own := by
        intro front own later start hstart
        have hsplit : front ++ (common ++ own ++ later) = (front ++ common) ++ (own ++ later) := by
          simp
        rw [hsplit, List.drop_left' (by simp [hstart]), List.take_left]
      refine List.forall_mem_cons.mpr ⟨⟨?_, ?_, ?_, ?_⟩, fun other hother => ?_⟩
      -- The lengths, on both sides, and then the lines that stand there.
      · rw [Hunk.patch, oldLines_entriesOf]
        rfl
      · rw [Hunk.patch, newLines_entriesOf]
        rfl
      · rw [Hunk.patch, oldLines_entriesOf]
        exact hstands (by rw [oldStart, hold])
      · rw [Hunk.patch, newLines_entriesOf]
        exact hstands (by rw [newStart, hnew])
      · have hother := ih (oldFront ++ (common ++ hunk.old)) (newFront ++ (common ++ hunk.new))
          (by simp; omega) (by simp; omega) other hother
        simpa only [List.append_assoc] using hother

/-- Applied to the old lines behind the position, the hunks give the new ones. -/
theorem applyHunks (h : Covers isFirst oldCount newCount hunks old new) :
    applyHunks oldCount (hunks.map Hunk.patch) old = some new := by
  induction h with
  | done common => rfl
  | @hunk isFirst oldCount newCount hunk later old new common apart oldStart newStart rest ih =>
      have hcommon : hunk.patch.oldStart - oldCount = common.length := by
        show hunk.oldStart - oldCount = _
        omega
      -- The hunk starts behind the position, and not behind the end.
      have hinside : ¬ (hunk.patch.oldStart < oldCount ∨
          (common ++ hunk.old ++ old).length < common.length) := by
        show ¬ (hunk.oldStart < oldCount ∨ _)
        simp only [List.length_append]
        omega
      have hentries : applyEntries hunk.patch.entries (hunk.old ++ old) = some (hunk.new, old) := by
        have happlied := applyEntries_append (entriesOf hunk.segments) old
        rwa [oldLines_entriesOf, newLines_entriesOf] at happlied
      rw [List.map_cons, Diff.applyHunks, hcommon, if_neg hinside, List.append_assoc common,
        List.drop_left, List.take_left, hentries]
      show (Diff.applyHunks (hunk.oldStart + hunk.old.length) (later.map Hunk.patch) old).bind _ = _
      rw [ih]
      rfl

end Covers

/-! ### The hunks of a script -/

/-- An open hunk takes some more segments, and the later hunks cover what lies behind them. -/
inductive Continued (oldCount newCount : Nat) (hunk : Hunk) (segments : List Segment) :
    List Hunk → Prop
  | intro (more : List Segment) {later : List Hunk} {old new : List String}
      (oldSplit : segments.flatMap Segment.old = more.flatMap Segment.old ++ old)
      (newSplit : segments.flatMap Segment.new = more.flatMap Segment.new ++ new)
      (rest : Covers false (oldCount + (more.flatMap Segment.old).length)
        (newCount + (more.flatMap Segment.new).length) later old new) :
      Continued oldCount newCount hunk segments
        (⟨hunk.oldStart, hunk.newStart, hunk.segments ++ more⟩ :: later)

/-- One segment more in the open hunk. -/
theorem Continued.push {oldCount newCount : Nat} {hunk : Hunk} {segment : Segment}
    {segments : List Segment} {hunks : List Hunk}
    (h : Continued (oldCount + segment.old.length) (newCount + segment.new.length)
      (hunk.push segment) segments hunks) :
    Continued oldCount newCount hunk (segment :: segments) hunks := by
  cases h with
  | intro more oldSplit newSplit rest =>
      rw [Nat.add_assoc, Nat.add_assoc, ← List.length_append, ← List.length_append] at rest
      have hclosed : Continued oldCount newCount hunk (segment :: segments) _ :=
        .intro (segment :: more) (by simp [oldSplit]) (by simp [newSplit]) rest
      simpa [Hunk.push] using hclosed

/-- A hunk that is open behind common lines covers what it takes, and the rest. -/
theorem Continued.covers {isFirst : Bool} {oldCount newCount : Nat} {hunk : Hunk}
    {segments : List Segment} {hunks : List Hunk} (common : List String)
    (h : Continued (hunk.oldStart + hunk.old.length) (hunk.newStart + hunk.new.length) hunk segments
      hunks)
    (apart : isFirst = true ∨ common ≠ []) (oldStart : hunk.oldStart = oldCount + common.length)
    (newStart : hunk.newStart = newCount + common.length) :
    Covers isFirst oldCount newCount hunks (common ++ hunk.old ++ segments.flatMap Segment.old)
      (common ++ hunk.new ++ segments.flatMap Segment.new) := by
  cases h with
  | @intro more later old new oldSplit newSplit rest =>
      have hold : (⟨hunk.oldStart, hunk.newStart, hunk.segments ++ more⟩ : Hunk).old
          = hunk.old ++ more.flatMap Segment.old := List.flatMap_append
      have hnew : (⟨hunk.oldStart, hunk.newStart, hunk.segments ++ more⟩ : Hunk).new
          = hunk.new ++ more.flatMap Segment.new := List.flatMap_append
      rw [Nat.add_assoc, Nat.add_assoc, ← List.length_append, ← List.length_append, ← hold,
        ← hnew] at rest
      have hcovers : Covers isFirst oldCount newCount
          (⟨hunk.oldStart, hunk.newStart, hunk.segments ++ more⟩ :: later) _ _ :=
        .hunk common apart oldStart newStart rest
      rw [hold, hnew] at hcovers
      simpa only [oldSplit, newSplit, List.append_assoc] using hcovers

/-- A hunk that is opened at the end of common lines stands behind those that it does not show. -/
theorem old_openHunk (oldCount newCount : Nat) (lines : List String) :
    (openHunk oldCount newCount lines).old = lines.drop (lines.length - contextSize) :=
  List.flatMap_singleton _ _

theorem new_openHunk (oldCount newCount : Nat) (lines : List String) :
    (openHunk oldCount newCount lines).new = lines.drop (lines.length - contextSize) :=
  List.flatMap_singleton _ _

/-- It ends where these lines do. -/
theorem end_openHunk (oldCount newCount : Nat) (lines : List String) :
    oldCount + lines.length
        = (openHunk oldCount newCount lines).oldStart
          + (openHunk oldCount newCount lines).old.length ∧
      newCount + lines.length
        = (openHunk oldCount newCount lines).newStart
          + (openHunk oldCount newCount lines).new.length := by
  rw [old_openHunk, new_openHunk, List.length_drop, openHunk]
  dsimp only
  omega

/-- The lines between two hunks: those that neither the first one shows behind its changes nor the
second one in front. -/
def hiddenLines (lines : List String) : List String :=
  (lines.drop contextSize).take (lines.length - 2 * contextSize)

section

variable {lines : List String} (h : ¬ lines.length ≤ 2 * contextSize)
include h

theorem length_hiddenLines : (hiddenLines lines).length = lines.length - 2 * contextSize := by
  rw [hiddenLines, List.length_take, List.length_drop]
  omega

theorem hiddenLines_ne_nil : hiddenLines lines ≠ [] := by
  intro hnil
  have hlength := length_hiddenLines h
  rw [hnil, List.length_nil] at hlength
  omega

theorem hiddenLines_append :
    hiddenLines lines ++ lines.drop (lines.length - contextSize) = lines.drop contextSize := by
  have hdrop : lines.drop (lines.length - contextSize)
      = (lines.drop contextSize).drop (lines.length - 2 * contextSize) := by
    rw [List.drop_drop]
    congr 1
    omega
  rw [hiddenLines, hdrop, List.take_append_drop]

theorem start_openHunk (oldCount newCount : Nat) :
    (openHunk oldCount newCount lines).oldStart
        = oldCount + (lines.take contextSize).length + (hiddenLines lines).length ∧
      (openHunk oldCount newCount lines).newStart
        = newCount + (lines.take contextSize).length + (hiddenLines lines).length := by
  rw [length_hiddenLines h, List.length_take, openHunk]
  dsimp only
  omega

end

/-- Behind an open hunk, the segments go on as the walk through both lists does. -/
theorem continued_collect {oldCount newCount : Nat} (hunk : Hunk) (segments : List Segment)
    (hold : oldCount = hunk.oldStart + hunk.old.length)
    (hnew : newCount = hunk.newStart + hunk.new.length) :
    Continued oldCount newCount hunk segments (collect oldCount newCount (some hunk) segments) := by
  induction segments generalizing oldCount newCount hunk with
  | nil =>
      have hclosed : Continued oldCount newCount hunk [] _ := .intro [] rfl rfl (.done [])
      rw [List.append_nil] at hclosed
      exact hclosed
  | cons segment rest ih =>
      -- A segment that the hunk takes as a whole.
      have hpushed : ∀ segment : Segment, Continued (oldCount + segment.old.length)
          (newCount + segment.new.length) (hunk.push segment) rest
          (collect (oldCount + segment.old.length) (newCount + segment.new.length)
            (some (hunk.push segment)) rest) := by
        intro segment
        refine ih (hunk.push segment) ?_ ?_ <;>
          simp [Hunk.push, Hunk.old, Hunk.new, hold, hnew, Nat.add_assoc]
      cases segment with
      | change removed added => exact (hpushed (.change removed added)).push
      | same lines =>
          cases rest with
          | nil =>
              -- What is not shown of the last lines is common to both lists.
              refine .intro [.same (lines.take contextSize)] ?_ ?_ (.done (lines.drop contextSize))
              · simp [Segment.old]
              · simp [Segment.new]
          | cons next rest =>
              rw [collect]
              split
              · exact (hpushed (.same lines)).push
              · -- The hunk is closed, and the next one is opened at the end of the same lines.
                rename_i hlong
                have hopened := ih (openHunk oldCount newCount lines)
                  (end_openHunk oldCount newCount lines).1 (end_openHunk oldCount newCount lines).2
                generalize collect _ _ (some (openHunk oldCount newCount lines)) (next :: rest)
                  = hunks at hopened ⊢
                rw [(end_openHunk oldCount newCount lines).1,
                  (end_openHunk oldCount newCount lines).2] at hopened
                obtain ⟨holdStart, hnewStart⟩ := start_openHunk hlong oldCount newCount
                have hcovers := hopened.covers (hiddenLines lines)
                  (.inr (hiddenLines_ne_nil hlong) : false = true ∨ _) holdStart hnewStart
                rw [old_openHunk, new_openHunk, hiddenLines_append hlong] at hcovers
                -- On both sides, the last common lines of the hunk are split off.
                have hshown : ∀ side : Segment → List String,
                    (∀ lines, side (.same lines) = lines) →
                    [Segment.same (lines.take contextSize)].flatMap side
                      = lines.take contextSize := by
                  intro side hside
                  rw [List.flatMap_singleton, hside]
                have hsplit : ∀ side : Segment → List String,
                    (∀ lines, side (.same lines) = lines) →
                    (Segment.same lines :: next :: rest).flatMap side
                      = [Segment.same (lines.take contextSize)].flatMap side ++
                        (lines.drop contextSize ++ (next :: rest).flatMap side) := by
                  intro side hside
                  rw [hshown side hside, List.flatMap_cons, hside, ← List.append_assoc,
                    List.take_append_drop]
                refine .intro [.same (lines.take contextSize)] (hsplit Segment.old fun _ => rfl)
                  (hsplit Segment.new fun _ => rfl) ?_
                rwa [hshown Segment.old fun _ => rfl, hshown Segment.new fun _ => rfl]
              · exact List.cons_ne_nil _ _

/-- The hunks of segments cover both of their sides. -/
theorem covers_hunks (segments : List Segment) :
    Covers true 0 0 (hunks segments) (segments.flatMap Segment.old)
      (segments.flatMap Segment.new) := by
  -- The first hunk is opened at the first change, behind as much of the common lines as it shows.
  have hfirst : ∀ (hunk : Hunk) (segments : List Segment) (common : List String)
      (oldCount newCount : Nat), oldCount = hunk.oldStart + hunk.old.length →
      newCount = hunk.newStart + hunk.new.length → hunk.oldStart = common.length →
      hunk.newStart = common.length →
      Covers true 0 0 (collect oldCount newCount (some hunk) segments)
        (common ++ hunk.old ++ segments.flatMap Segment.old)
        (common ++ hunk.new ++ segments.flatMap Segment.new) := by
    intro hunk segments common oldCount newCount hold hnew holdStart hnewStart
    have hopened := continued_collect hunk segments hold hnew
    generalize collect oldCount newCount (some hunk) segments = hunks at hopened ⊢
    rw [hold, hnew] at hopened
    exact hopened.covers common (.inl rfl) (by omega) (by omega)
  unfold hunks
  cases segments with
  | nil => exact .done []
  | cons segment rest =>
      cases segment with
      | change removed added =>
          have hcovers := hfirst ⟨0, 0, [.change removed added]⟩ rest []
            removed.length added.length (by simp [Hunk.old, Segment.old])
            (by simp [Hunk.new, Segment.new]) rfl rfl
          simpa [collect, Hunk.push, Hunk.old, Hunk.new] using hcovers
      | same lines =>
          cases rest with
          | nil =>
              -- Common lines alone need no hunk.
              rw [List.flatMap_singleton, List.flatMap_singleton]
              exact .done lines
          | cons next rest =>
              obtain ⟨hold, hnew⟩ := end_openHunk 0 0 lines
              have hcovers := hfirst (openHunk 0 0 lines) (next :: rest)
                (lines.take (lines.length - contextSize)) _ _ hold hnew
                (by simp [openHunk]) (by simp [openHunk])
              rw [old_openHunk, new_openHunk, List.take_append_drop] at hcovers
              exact hcovers

end HeaderBind.Diff
