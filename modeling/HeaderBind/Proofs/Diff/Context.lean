import HeaderBind.Proofs.Diff.Hunk

/-!
# `HeaderBind.Proofs.Diff.Context`: the common lines around changes

A hunk starts three common lines in front of its first change and ends three behind its last one.
There are fewer only at the front and at the end of both lists (`PatchHunk.Framed`).

The segments of a script take turns, so an open hunk is in one of two states. It has a change at its
end (`Ready`) and may be closed, or a change comes next (`Awaiting`). `framed_collect` follows the
hunk from state to state, one segment after another.
-/

set_option autoImplicit false

namespace HeaderBind.Diff

/-- The marked lines of an open hunk: common ones in front, and what came behind. -/
inductive Opened (hunk : Hunk) (more : List (Mark × String)) : Prop
  | intro (before : List String)
      (entries : entriesOf hunk.segments = before.map (.common, ·) ++ more)
      (inFront : before.length = 3 ∨
        before.length < 3 ∧ hunk.oldStart = 0 ∧ hunk.newStart = 0)

/-- Marked lines of which the first one is a change. -/
def Starts (entries : List (Mark × String)) : Prop :=
  ∃ entry ∈ entries.head?, entry.1 ≠ .common

/-- Marked lines of which the last one is a change. -/
def Ends (entries : List (Mark × String)) : Prop :=
  ∃ entry ∈ entries.getLast?, entry.1 ≠ .common

/-- An open hunk that a change may follow. -/
def Awaiting (hunk : Hunk) : Prop :=
  ∃ more, Opened hunk more ∧ (more = [] ∨ Starts more)

/-- An open hunk with a change at its end. -/
def Ready (hunk : Hunk) : Prop :=
  ∃ changes, Opened hunk changes ∧ Starts changes ∧ Ends changes

theorem Starts.append {entries : List (Mark × String)} (h : Starts entries)
    (more : List (Mark × String)) : Starts (entries ++ more) := by
  obtain ⟨entry, hentry, hmark⟩ := h
  refine ⟨entry, ?_, hmark⟩
  rw [List.head?_append, Option.mem_def.mp hentry, Option.some_or]
  rfl

/-- A change that is not empty starts and ends with a line that is not common. -/
theorem starts_ends_entries {removed added : List String}
    (h : (Segment.change removed added).Filled) :
    Starts (Segment.change removed added).entries ∧
      Ends (Segment.change removed added).entries := by
  have hmarks : ∀ entry ∈ (Segment.change removed added).entries, entry.1 ≠ .common := by
    intro entry hentry
    rcases List.mem_append.mp hentry with hentry | hentry <;>
      · obtain ⟨line, -, rfl⟩ := List.mem_map.mp hentry
        exact nofun
  have hne : (Segment.change removed added).entries ≠ [] := by
    simpa [Segment.entries, Segment.Filled, Segment.old, Segment.new, imp_iff_not_or] using h
  refine ⟨⟨_, Option.mem_def.mpr (List.head?_eq_some_head hne), hmarks _ (List.head_mem hne)⟩,
    ⟨_, Option.mem_def.mpr (List.getLast?_eq_some_getLast hne), hmarks _ (List.getLast_mem hne)⟩⟩

variable {hunk : Hunk}

theorem entriesOf_push (hunk : Hunk) (segment : Segment) :
    entriesOf (hunk.push segment).segments = entriesOf hunk.segments ++ segment.entries := by
  simp [entriesOf, Hunk.push]

theorem Opened.push {more : List (Mark × String)} (h : Opened hunk more) (segment : Segment) :
    Opened (hunk.push segment) (more ++ segment.entries) := by
  obtain ⟨before, entries, inFront⟩ := h
  refine ⟨before, ?_, inFront⟩
  rw [entriesOf_push, entries, List.append_assoc]

theorem Ready.awaiting (h : Ready hunk) : Awaiting hunk := by
  obtain ⟨changes, hopened, hstarts, -⟩ := h
  exact ⟨changes, hopened, .inr hstarts⟩

/-- Behind common lines, a change comes next. -/
theorem Ready.push_same (h : Ready hunk) (lines : List String) :
    Awaiting (hunk.push (.same lines)) := by
  obtain ⟨changes, hopened, hstarts, -⟩ := h
  exact ⟨_, hopened.push (.same lines), .inr (hstarts.append _)⟩

theorem Awaiting.push_change (h : Awaiting hunk) {removed added : List String}
    (hfilled : (Segment.change removed added).Filled) :
    Ready (hunk.push (.change removed added)) := by
  obtain ⟨more, hopened, hmore⟩ := h
  obtain ⟨hstarts, entry, hentry, hmark⟩ := starts_ends_entries hfilled
  refine ⟨_, hopened.push _, ?_, entry, ?_, hmark⟩
  · rcases hmore with rfl | hmore
    · exact hstarts
    · exact hmore.append _
  · rw [List.getLast?_append, Option.mem_def.mp hentry, Option.some_or]
    rfl

/-- A hunk with a change at its end is closed with common lines. -/
theorem Ready.framed {oldCount newCount : Nat} (h : Ready hunk) (after : List String)
    {segments : List Segment}
    (hentries : entriesOf segments = entriesOf hunk.segments ++ after.map (.common, ·))
    (behind : after.length = 3 ∨ after.length < 3 ∧
      hunk.oldStart + (segments.flatMap Segment.old).length = oldCount ∧
      hunk.newStart + (segments.flatMap Segment.new).length = newCount) :
    (Hunk.patch ⟨hunk.oldStart, hunk.newStart, segments⟩).Framed oldCount newCount := by
  obtain ⟨changes, ⟨before, entries, inFront⟩, hstarts, hends⟩ := h
  refine .intro before after changes ?_ hstarts hends inFront behind
  rw [Hunk.patch, hentries, entries]

/-- A hunk that was just opened shows the last three common lines, or all of them at the front. -/
theorem awaiting_openHunk {oldCount newCount : Nat} {lines : List String}
    (h : 3 ≤ lines.length ∨ oldCount = 0 ∧ newCount = 0) :
    Awaiting (openHunk oldCount newCount lines) := by
  have hcontext : contextSize = 3 := rfl
  refine ⟨[], ⟨lines.drop (lines.length - contextSize), ?_, ?_⟩, .inl rfl⟩
  · simp [entriesOf, openHunk, Segment.entries]
  · rw [List.length_drop, openHunk]
    dsimp only
    omega

theorem Alternating.tail {segment : Segment} {segments : List Segment}
    (h : Alternating (segment :: segments)) : Alternating segments :=
  ⟨h.turns.tail, (List.forall_mem_cons.mp h.filled).2⟩

/-- Common lines are followed by a change. -/
theorem Alternating.isSame_eq_false {lines : List String} {next : Segment} {rest : List Segment}
    (h : Alternating (.same lines :: next :: rest)) : next.isSame = false := by
  have hturn := (List.isChain_cons_cons.mp h.turns).1
  simpa [Segment.isSame] using hturn

/-- Behind an open hunk, every hunk that is closed is framed. -/
theorem framed_collect {oldTotal newTotal oldCount newCount : Nat} (hunk : Hunk)
    {segments : List Segment} (halternating : Alternating segments) (hawaiting : Awaiting hunk)
    (hready : (∀ next ∈ segments.head?, next.isSame = true) → Ready hunk)
    (hold : oldCount = hunk.oldStart + hunk.old.length)
    (hnew : newCount = hunk.newStart + hunk.new.length)
    (holdTotal : oldCount + (segments.flatMap Segment.old).length = oldTotal)
    (hnewTotal : newCount + (segments.flatMap Segment.new).length = newTotal) :
    ∀ closed ∈ collect oldCount newCount (some hunk) segments,
      closed.patch.Framed oldTotal newTotal := by
  induction segments generalizing oldCount newCount hunk with
  | nil =>
      intro closed hclosed
      rw [List.mem_singleton.mp hclosed]
      have hends : Ready hunk := hready fun next hnext => absurd hnext (Option.not_mem_none next)
      refine hends.framed [] (List.append_nil _).symm (.inr ⟨by decide, ?_, ?_⟩)
      · rw [← holdTotal, hold]
        rfl
      · rw [← hnewTotal, hnew]
        rfl
  | cons segment rest ih =>
      rw [List.flatMap_cons, List.length_append, ← Nat.add_assoc] at holdTotal hnewTotal
      -- With the segment in it, the hunk ends where the next segment starts.
      have hoverOld : oldCount + segment.old.length
          = (hunk.push segment).oldStart + (hunk.push segment).old.length := by
        simp [Hunk.push, Hunk.old, hold, Nat.add_assoc]
      have hoverNew : newCount + segment.new.length
          = (hunk.push segment).newStart + (hunk.push segment).new.length := by
        simp [Hunk.push, Hunk.new, hnew, Nat.add_assoc]
      cases segment with
      | change removed added =>
          have hpushed := hawaiting.push_change (halternating.filled _ List.mem_cons_self)
          exact ih _ halternating.tail hpushed.awaiting (fun _ => hpushed) hoverOld hoverNew
            holdTotal hnewTotal
      | same lines =>
          -- Common lines come next, so there is a change at the end.
          have hchanged : Ready hunk := by
            refine hready fun next hnext => ?_
            cases hnext
            rfl
          cases rest with
          | nil =>
              intro closed hclosed
              rw [List.mem_singleton.mp hclosed]
              refine hchanged.framed (lines.take contextSize) (entriesOf_push hunk _) ?_
              by_cases hlong : contextSize ≤ lines.length
              · exact .inl (by rw [List.length_take, Nat.min_eq_left hlong, contextSize])
              · -- All of the lines are shown, and they are the last ones.
                have hcontext : contextSize = 3 := rfl
                have hall : lines.take contextSize = lines := List.take_of_length_le (by omega)
                rw [hall]
                refine .inr ⟨by omega, ?_, ?_⟩
                · rw [← holdTotal, hoverOld]
                  rfl
                · rw [← hnewTotal, hoverNew]
                  rfl
          | cons next rest =>
              -- A change comes next, so the hunk that stays open need not be ready.
              have hturn : (∀ other ∈ (next :: rest).head?, other.isSame = true) → False := by
                intro hsame
                have hnext := hsame next rfl
                rw [halternating.isSame_eq_false] at hnext
                cases hnext
              rw [collect]
              split
              · exact ih _ halternating.tail (hchanged.push_same lines) (fun h => (hturn h).elim)
                  hoverOld hoverNew holdTotal hnewTotal
              · -- The hunk is closed, and the next one shows the last three of the same lines.
                rename_i hlong
                have hcontext : contextSize = 3 := rfl
                obtain ⟨hopenOld, hopenNew⟩ := end_openHunk oldCount newCount lines
                refine List.forall_mem_cons.mpr ⟨?_, ?_⟩
                · refine hchanged.framed (lines.take contextSize) (entriesOf_push hunk _) (.inl ?_)
                  rw [List.length_take]
                  omega
                · exact ih _ halternating.tail (awaiting_openHunk (.inl (by omega)))
                    (fun h => (hturn h).elim) hopenOld hopenNew holdTotal hnewTotal
              · exact List.cons_ne_nil _ _

/-- Every hunk of segments that take turns is framed. -/
theorem framed_hunks {segments : List Segment} (h : Alternating segments) :
    ∀ hunk ∈ hunks segments, hunk.patch.Framed (segments.flatMap Segment.old).length
      (segments.flatMap Segment.new).length := by
  unfold hunks
  cases segments with
  | nil => exact fun hunk hhunk => absurd hhunk List.not_mem_nil
  | cons segment rest =>
      cases segment with
      | change removed added =>
          -- The first hunk starts at the front of both lists, with nothing to show there.
          have hawaiting : Awaiting ⟨0, 0, []⟩ :=
            ⟨[], ⟨[], rfl, .inr ⟨by decide, rfl, rfl⟩⟩, .inl rfl⟩
          have hready := hawaiting.push_change (h.filled _ List.mem_cons_self)
          exact framed_collect _ h.tail hready.awaiting (fun _ => hready)
            (by simp [Hunk.push, Hunk.old, Segment.old])
            (by simp [Hunk.push, Hunk.new, Segment.new])
            (by simp [Segment.old]) (by simp [Segment.new])
      | same lines =>
          cases rest with
          | nil => exact fun hunk hhunk => absurd hhunk List.not_mem_nil
          | cons next rest =>
              obtain ⟨hold, hnew⟩ := end_openHunk 0 0 lines
              refine framed_collect _ h.tail (awaiting_openHunk (.inr ⟨rfl, rfl⟩)) (fun hsame => ?_)
                hold hnew (by simp [Segment.old]) (by simp [Segment.new])
              have hnext := hsame next rfl
              rw [h.isSame_eq_false] at hnext
              cases hnext

end HeaderBind.Diff
