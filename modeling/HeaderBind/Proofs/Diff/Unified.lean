import HeaderBind.Diff.Unified
import HeaderBind.Proofs.Diff.Context
import HeaderBind.Proofs.Text.Numeral

/-!
# `HeaderBind.Proofs.Diff.Unified`: a difference is a correct patch

The difference of two texts is text again. Whoever splits it into lines gets the lines that were
written, since there is no line break in any of them (`splitLines_unifiedLines`), and reads each of
them as what it was written for: a range (`readRange?_rangeText`), the line that starts a hunk
(`readRanges?_rangeLine`), a marked line of its body (`readHunks?_entries`). So the hunks of the
script are read back (`readHunks?_hunkLines`), and what is known of them holds of the text.

`patch_unified` is the result: no text at all where the lines are equal, and otherwise a patch with
the two labels that turns the old lines into the new ones.
-/

set_option autoImplicit false

namespace HeaderBind

open HeaderBind.Text

namespace Diff

/-! ### Ranges -/

theorem readNumber?_toString (n : Nat) : readNumber? (toString n).toList = some n := by
  obtain ⟨hne, hdigits⟩ := Numeral.isDigits_toDigits n
  have hall : (Nat.toDigits 10 n).all Char.isDigit = true := List.all_eq_true.mpr hdigits
  have hnonempty : (Nat.toDigits 10 n).isEmpty = false := by simp [hne]
  rw [Nat.toString_eq_repr, Nat.toList_repr, readNumber?, hnonempty, hall,
    Nat.ofDigitChars_ten_toDigits]
  rfl

/-- Digits have none of the characters in them that separate ranges. -/
theorem notMem_toString {c : Char} (h : c.isDigit = false) (n : Nat) : c ∉ (toString n).toList := by
  intro hmem
  rw [Nat.toString_eq_repr, Nat.toList_repr] at hmem
  rw [(Numeral.isDigits_toDigits n).2 c hmem] at h
  cases h

/-- The digits of a range: of the number of its first line alone, or of that, or of the line in
front, and of its length. -/
theorem toList_rangeText (start length : Nat) :
    (rangeText start length).toList
      = if length = 1 then (toString (start + 1)).toList
        else if length = 0 then (toString start).toList ++ ',' :: (toString 0).toList
        else (toString (start + 1)).toList ++ ',' :: (toString length).toList := by
  unfold rangeText
  split
  · rfl
  · split
    · exact String.toList_append
    · rw [String.toList_append, String.toList_append, List.append_assoc]
      rfl

/-- A range is read as it was written. -/
theorem readRange?_rangeText (start length : Nat) :
    readRange? (rangeText start length).toList = some (start, length) := by
  have hcomma : ∀ n : Nat, ',' ∉ (toString n).toList := notMem_toString (by decide)
  have hpair : ∀ first length : Nat,
      ((toString first).toList ++ ',' :: (toString length).toList).splitOn ','
        = [(toString first).toList, (toString length).toList] := by
    intro first length
    have hsplit := splitOn_flatMap_cons (hcomma first)
      (List.forall_mem_singleton.mpr (hcomma length))
    simpa using hsplit
  rw [toList_rangeText]
  split
  · rename_i hone
    simp only [readRange?, List.splitOn_eq_singleton (hcomma (start + 1)), readNumber?_toString,
      Option.bind_eq_bind, Option.bind_some, if_neg (Nat.succ_ne_zero start), Nat.add_sub_cancel,
      hone]
  · split
    · rename_i hzero
      simp only [readRange?, hpair, readNumber?_toString, Option.bind_eq_bind, Option.bind_some,
        if_true, hzero]
    · rename_i hlong
      simp only [readRange?, hpair, readNumber?_toString, Option.bind_eq_bind, Option.bind_some,
        if_neg hlong, if_neg (Nat.succ_ne_zero start), Nat.add_sub_cancel]

/-- A range consists of digits and commas. -/
theorem notMem_rangeText {c : Char} (hdigit : c.isDigit = false) (hcomma : c ≠ ',')
    (start length : Nat) : c ∉ (rangeText start length).toList := by
  rw [toList_rangeText]
  split
  · exact notMem_toString hdigit _
  · split <;> simp only [List.mem_append, List.mem_cons, notMem_toString hdigit, hcomma, or_self,
      not_false_eq_true]

theorem toList_rangeLine (hunk : Hunk) :
    (rangeLine hunk).toList
      = ['@', '@'] ++ [
          '-' :: (rangeText hunk.oldStart hunk.old.length).toList,
          '+' :: (rangeText hunk.newStart hunk.new.length).toList,
          ['@', '@']].flatMap (' ' :: ·) := by
  simp only [rangeLine, String.toList_append, List.flatMap_cons, List.flatMap_nil,
    List.append_assoc]
  rfl

/-- The line that starts a hunk is read as the two ranges. -/
theorem readRanges?_rangeLine (hunk : Hunk) :
    readRanges? (rangeLine hunk).toList
      = some ((hunk.oldStart, hunk.old.length), hunk.newStart, hunk.new.length) := by
  have hspace := notMem_rangeText (by decide : ' '.isDigit = false) (by decide)
  have hsplit : (rangeLine hunk).toList.splitOn ' '
      = [['@', '@'], '-' :: (rangeText hunk.oldStart hunk.old.length).toList,
        '+' :: (rangeText hunk.newStart hunk.new.length).toList, ['@', '@']] := by
    rw [toList_rangeLine]
    refine splitOn_flatMap_cons (by decide) ?_
    simp [hspace]
  simp only [readRanges?, hsplit, readRange?_rangeText]
  rfl

/-! ### Marked lines -/

/-- A marked line as it is written. -/
def entryText : Mark × String → String
  | (.common, line) => " " ++ line
  | (.removed, line) => "-" ++ line
  | (.added, line) => "+" ++ line

/-- The character that a marked line starts with. -/
def Mark.sign : Mark → Char
  | common => ' '
  | removed => '-'
  | added => '+'

theorem toList_entryText (mark : Mark) (line : String) :
    (entryText (mark, line)).toList = mark.sign :: line.toList := by
  cases mark <;> exact String.toList_append

theorem segmentLines_eq (segment : Segment) :
    segmentLines segment = segment.entries.map entryText := by
  cases segment with
  | same lines =>
      rw [segmentLines, Segment.entries, List.map_map]
      rfl
  | change removed added =>
      rw [segmentLines, Segment.entries, List.map_append, List.map_map, List.map_map]
      rfl

/-- A line that starts a hunk starts with a mark of its own. -/
theorem head?_of_readRanges? {line : List Char} {ranges : (Nat × Nat) × Nat × Nat}
    (h : readRanges? line = some ranges) : line.head? = some '@' := by
  unfold readRanges? at h
  split at h
  · rename_i old new hsplit
    have hline : [' '].intercalate (line.splitOn ' ') = line := List.intercalate_splitOn ' '
    rw [hsplit] at hline
    rw [← hline]
    rfl
  · cases h

/-- A marked line is read as what it is. -/
theorem readEntry?_entryText (entry : Mark × String) :
    readRanges? (entryText entry).toList = none ∧
      readEntry? (entryText entry).toList = some entry := by
  obtain ⟨mark, line⟩ := entry
  have hsign : mark.sign ≠ '@' := by cases mark <;> decide
  have hread : readEntry? (mark.sign :: line.toList) = some (mark, String.ofList line.toList) := by
    cases mark <;> rfl
  rw [toList_entryText, hread, String.ofList_toList]
  refine ⟨Option.eq_none_iff_forall_not_mem.mpr fun ranges hranges => ?_, rfl⟩
  exact hsign (Option.some.inj (head?_of_readRanges? hranges))

/-- Marked lines in front of others are those of the hunk that is open. -/
theorem readHunks?_entries {rest : List (List Char)} {hunks : List PatchHunk}
    (h : readHunks? rest = some ([], hunks)) (entries : List (Mark × String)) :
    readHunks? ((entries.map fun entry => (entryText entry).toList) ++ rest)
      = some (entries, hunks) := by
  induction entries with
  | nil => exact h
  | cons entry entries ih =>
      obtain ⟨hranges, hentry⟩ := readEntry?_entryText entry
      rw [List.map_cons, List.cons_append, readHunks?, ih]
      simp only [Option.bind_eq_bind, Option.bind_some, hranges, hentry]

/-- The hunks are read back from their lines. -/
theorem readHunks?_hunkLines (hunks : List Hunk) :
    readHunks? ((hunks.flatMap hunkLines).map String.toList)
      = some ([], hunks.map Hunk.patch) := by
  induction hunks with
  | nil => rfl
  | cons hunk hunks ih =>
      have hlines : (hunkLines hunk).map String.toList
          = (rangeLine hunk).toList ::
            (entriesOf hunk.segments).map fun entry => (entryText entry).toList := by
        simp only [hunkLines, segmentLines_eq, List.map_cons, List.map_flatMap, List.map_map,
          entriesOf]
        rfl
      rw [List.flatMap_cons, List.map_append, hlines, List.cons_append, readHunks?,
        readHunks?_entries ih]
      simp only [Option.bind_eq_bind, Option.bind_some, readRanges?_rangeLine]
      rfl

/-! ### The lines of a difference -/

variable {old new : List String} {oldLabel newLabel : String}

/-- There is nothing to show exactly where the lists are equal. -/
theorem hunks_script_eq_nil_iff : hunks (script old new) = [] ↔ old = new := by
  constructor
  · intro h
    have hcovers := covers_hunks (script old new)
    rw [h, old_script, new_script] at hcovers
    exact hcovers.eq_of_nil
  · rintro rfl
    rcases script_self old with h | h <;> rw [h] <;> rfl

theorem unifiedLines_of_eq (h : old = new) : unifiedLines old new oldLabel newLabel = [] := by
  rw [unifiedLines, hunks_script_eq_nil_iff.mpr h]

theorem unifiedLines_of_ne (h : old ≠ new) :
    unifiedLines old new oldLabel newLabel
      = ("--- " ++ oldLabel) :: ("+++ " ++ newLabel) ::
        (hunks (script old new)).flatMap hunkLines := by
  unfold unifiedLines
  split
  · rename_i hnone
    exact absurd (hunks_script_eq_nil_iff.mp hnone) h
  · rfl

/-- A text in which no break is found has none. -/
theorem isLineBreak_of_any_eq_false {cs : List Char} (h : cs.any isLineBreak = false) :
    ∀ c ∈ cs, isLineBreak c = false :=
  fun c hc => Bool.eq_false_iff.mpr (List.any_eq_false.mp h c hc)

/-- No compared line has a break in it. -/
theorem isLineBreak_of_mem_comparedLines {text line : String} (h : line ∈ comparedLines text) :
    ∀ c ∈ line.toList, isLineBreak c = false := by
  obtain ⟨cs, hcs, rfl⟩ := List.mem_map.mp h
  rw [String.toList_ofList]
  exact isLineBreak_of_mem_splitLines _ cs hcs

/-- A range line has no break in it. -/
theorem isLineBreak_of_mem_rangeLine {hunk : Hunk} {c : Char} (h : c ∈ (rangeLine hunk).toList) :
    isLineBreak c = false := by
  by_contra hbreak
  have hdigit : c.isDigit = false := by
    by_contra hdigit
    exact hbreak (isLineBreak_of_isVisible (isVisible_of_isDigit (by simpa using hdigit)))
  have hother : ∀ d : Char, isLineBreak d = false → c ≠ d := by
    rintro d hd rfl
    exact hbreak hd
  have hrange := notMem_rangeText hdigit (hother ',' (by decide))
  rw [toList_rangeLine] at h
  simp [hrange, hother ' ' (by decide), hother '@' (by decide), hother '-' (by decide),
    hother '+' (by decide)] at h

/-- The lines of a hunk are old lines or new ones. -/
theorem PatchHunk.Exact.mem {hunk : PatchHunk} (h : hunk.Exact old new) :
    ∀ entry ∈ hunk.entries, entry.2 ∈ old ∨ entry.2 ∈ new := by
  intro entry hentry
  have hshown : ∀ {mark : Mark}, entry.1 ≠ mark → entry.2 ∈ linesWithout mark hunk.entries := by
    intro mark hmark
    exact List.mem_map.mpr ⟨entry, List.mem_filter.mpr ⟨hentry, by simpa using hmark⟩, rfl⟩
  by_cases hadded : entry.1 = .added
  · right
    have hmem : entry.2 ∈ Diff.newLines hunk.entries := hshown (by simp [hadded])
    rw [← h.newLines] at hmem
    exact List.mem_of_mem_drop (List.mem_of_mem_take hmem)
  · left
    have hmem : entry.2 ∈ Diff.oldLines hunk.entries := hshown hadded
    rw [← h.oldLines] at hmem
    exact List.mem_of_mem_drop (List.mem_of_mem_take hmem)

/-- The ranges of all hunks of a script are exact. -/
theorem exact_hunks (old new : List String) :
    ∀ hunk ∈ hunks (script old new), hunk.patch.Exact old new := by
  have hcovers := covers_hunks (script old new)
  rw [old_script, new_script] at hcovers
  exact hcovers.exact [] [] rfl rfl

section

variable (hold : ∀ line ∈ old, ∀ c ∈ line.toList, isLineBreak c = false)
  (hnew : ∀ line ∈ new, ∀ c ∈ line.toList, isLineBreak c = false)
include hold hnew

/-- The lines of a hunk have no breaks in them, and none of them is empty. -/
theorem clean_hunkLines {hunk : Hunk} (h : hunk ∈ hunks (script old new)) :
    ∀ line ∈ hunkLines hunk, line.toList ≠ [] ∧ ∀ c ∈ line.toList, isLineBreak c = false := by
  refine List.forall_mem_cons.mpr ⟨⟨?_, fun c hc => isLineBreak_of_mem_rangeLine hc⟩, ?_⟩
  · rw [toList_rangeLine]
    exact List.cons_ne_nil _ _
  · intro line hline
    obtain ⟨segment, hsegment, hline⟩ := List.mem_flatMap.mp hline
    rw [segmentLines_eq] at hline
    obtain ⟨⟨mark, text⟩, hentry, rfl⟩ := List.mem_map.mp hline
    -- The text is a line of one of both lists.
    have hclean : ∀ c ∈ text.toList, isLineBreak c = false := by
      have hmem := (exact_hunks old new hunk h).mem (mark, text)
        (List.mem_flatMap.mpr ⟨segment, hsegment, hentry⟩)
      exact hmem.elim (hold text) (hnew text)
    have hsign : isLineBreak mark.sign = false := by cases mark <;> decide
    rw [toList_entryText]
    exact ⟨List.cons_ne_nil _ _, List.forall_mem_cons.mpr ⟨hsign, hclean⟩⟩

/-- The difference is split into the lines that it was made of. -/
theorem splitLines_unifiedLines (holdLabel : ∀ c ∈ oldLabel.toList, isLineBreak c = false)
    (hnewLabel : ∀ c ∈ newLabel.toList, isLineBreak c = false) :
    splitLines ("\n".intercalate (unifiedLines old new oldLabel newLabel)).toList
      = (unifiedLines old new oldLabel newLabel).map String.toList := by
  have hclean : ∀ line ∈ unifiedLines old new oldLabel newLabel,
      line.toList ≠ [] ∧ ∀ c ∈ line.toList, isLineBreak c = false := by
    by_cases hsame : old = new
    · rw [unifiedLines_of_eq hsame]
      exact nofun
    · have hheader : ∀ {mark label : String}, mark.toList ≠ [] →
          mark.toList.any isLineBreak = false →
          (∀ c ∈ label.toList, isLineBreak c = false) →
          (mark ++ label).toList ≠ [] ∧
            ∀ c ∈ (mark ++ label).toList, isLineBreak c = false := by
        intro mark label hne hmark hlabel
        rw [String.toList_append]
        exact ⟨List.append_ne_nil_of_left_ne_nil hne _,
          fun c hc => (List.mem_append.mp hc).elim (isLineBreak_of_any_eq_false hmark c)
            (hlabel c)⟩
      rw [unifiedLines_of_ne hsame]
      refine List.forall_mem_cons.mpr ⟨hheader (by decide) (by decide) holdLabel,
        List.forall_mem_cons.mpr ⟨hheader (by decide) (by decide) hnewLabel, ?_⟩⟩
      intro line hline
      obtain ⟨hunk, hhunk, hline⟩ := List.mem_flatMap.mp hline
      exact clean_hunkLines hold hnew hhunk line hline
  rw [String.toList_intercalate]
  refine splitLines_intercalate (fun cs hcs => ?_) fun cs hcs => ?_
  · obtain ⟨line, hline, rfl⟩ := List.mem_map.mp hcs
    exact (hclean line hline).1
  · obtain ⟨line, hline, rfl⟩ := List.mem_map.mp hcs
    exact (hclean line hline).2

end

/-- The lines of a difference are read as a patch with the hunks of the script. -/
theorem readPatch?_unifiedLines (h : old ≠ new) :
    readPatch? ((unifiedLines old new oldLabel newLabel).map String.toList)
      = some ⟨oldLabel, newLabel, (hunks (script old new)).map Hunk.patch⟩ := by
  have holdHeader : ("--- " ++ oldLabel).toList = '-' :: '-' :: '-' :: ' ' :: oldLabel.toList :=
    String.toList_append
  have hnewHeader : ("+++ " ++ newLabel).toList = '+' :: '+' :: '+' :: ' ' :: newLabel.toList :=
    String.toList_append
  rw [unifiedLines_of_ne h, List.map_cons, List.map_cons, holdHeader, hnewHeader, readPatch?,
    readHunks?_hunkLines]
  simp only [Option.bind_eq_bind, Option.bind_some, String.ofList_toList]
  rfl

/-- The difference of two texts is empty exactly where they have the same lines. Otherwise it is a
patch with the two labels. Its hunks stand in order and apart from each other, their ranges are just
those of their lines, each shows up to three common lines around its changes, and together they turn
the old lines into the new ones. -/
theorem patch_unified (old new : String) {oldLabel newLabel : String}
    (hold : ∀ c ∈ oldLabel.toList, isLineBreak c = false)
    (hnew : ∀ c ∈ newLabel.toList, isLineBreak c = false) :
    (unified old new oldLabel newLabel = "" ↔ comparedLines old = comparedLines new) ∧
      (comparedLines old ≠ comparedLines new → ∃ hunks,
        readPatch? (splitLines (unified old new oldLabel newLabel).toList)
            = some ⟨oldLabel, newLabel, hunks⟩ ∧
          hunks ≠ [] ∧ hunks.Pairwise PatchHunk.Before ∧
          (∀ hunk ∈ hunks, hunk.Exact (comparedLines old) (comparedLines new) ∧
            hunk.Framed (comparedLines old).length (comparedLines new).length) ∧
          applyHunks 0 hunks (comparedLines old) = some (comparedLines new)) := by
  -- No compared line has a break in it, so splitting the text gives its lines back.
  have hsplit : splitLines (unified old new oldLabel newLabel).toList
      = (unifiedLines (comparedLines old) (comparedLines new) oldLabel newLabel).map
        String.toList :=
    splitLines_unifiedLines (fun line hline => isLineBreak_of_mem_comparedLines hline)
      (fun line hline => isLineBreak_of_mem_comparedLines hline) hold hnew
  refine ⟨⟨fun hempty => ?_, fun hsame => ?_⟩, fun hdifferent => ?_⟩
  · by_contra hdifferent
    rw [hempty, unifiedLines_of_ne hdifferent] at hsplit
    cases hsplit
  · rw [unified, unifiedLines_of_eq hsame]
    rfl
  · -- Order and result come from the walk through both lists, the context from the turns.
    have hcovers := covers_hunks (script (comparedLines old) (comparedLines new))
    have hframed := framed_hunks (alternating_script (comparedLines old) (comparedLines new))
    rw [old_script, new_script] at hcovers hframed
    rw [hsplit, readPatch?_unifiedLines hdifferent]
    refine ⟨_, rfl, ?_, hcovers.pairwise, ?_, hcovers.applyHunks⟩
    · intro hnil
      exact hdifferent (hunks_script_eq_nil_iff.mp (List.map_eq_nil_iff.mp hnil))
    · intro hunk hhunk
      obtain ⟨shown, hshown, rfl⟩ := List.mem_map.mp hhunk
      exact ⟨exact_hunks _ _ shown hshown, hframed shown hshown⟩

/-- A file with two lines whose second one is generated anew: its difference is read as a patch, and
the patch makes the new lines of the old ones. -/
theorem patch_unified_second_line :
    unified "one\ntwo\n" "one\r\n2" "on disk" "generated"
        = "--- on disk\n+++ generated\n@@ -1,2 +1,2 @@\n one\n-two\n+2" ∧
      ∃ hunks,
        readPatch? (splitLines (unified "one\ntwo\n" "one\r\n2" "on disk" "generated").toList)
            = some ⟨"on disk", "generated", hunks⟩ ∧
          applyHunks 0 hunks ["one", "two"] = some ["one", "2"] := by
  refine ⟨by decide, ?_⟩
  have hold : comparedLines "one\ntwo\n" = ["one", "two"] := by decide
  have hnew : comparedLines "one\r\n2" = ["one", "2"] := by decide
  have hpatch := (patch_unified "one\ntwo\n" "one\r\n2"
    (isLineBreak_of_any_eq_false (show "on disk".toList.any isLineBreak = false by decide))
    (isLineBreak_of_any_eq_false (show "generated".toList.any isLineBreak = false by decide))).2
    (by decide)
  rw [hold, hnew] at hpatch
  obtain ⟨hunks, hread, -, -, -, hmade⟩ := hpatch
  exact ⟨hunks, hread, hmade⟩

end Diff

end HeaderBind
