import HeaderBind.Proofs.Artifact
import HeaderBind.Proofs.Compiler
import HeaderBind.Proofs.Diff.Unified

/-!
# `HeaderBind.Proofs.Diff.Visible`: which changes of a file are shown

Whether a file is out of date is decided by its text, and what is shown of it by its lines. The two
do not always agree. `Diff.levelled` is what is left of a text in its lines: every break has become
a line feed, and the last line is ended. `Diff.comparedLines_eq_iff` says that two texts have the
same lines exactly when the same is left of them.

`Artifact.shown_of_write` puts this beside the status. Nothing is shown of a file that is out of
date exactly when the same is left of both texts: they differ in the kind of their breaks or in the
break at the very end. `Artifact.drift_lastBreak` is such a file. Between texts that only have line
feeds, the last one at the end, every change is shown.
-/

set_option autoImplicit false

namespace HeaderBind

open HeaderBind.Text

namespace Diff

/-! ### What is left of a text in its lines -/

/-- A line feed for every break. -/
def levelBreak (c : Char) : Char :=
  if isLineBreak c then '\n' else c

/-- The characters with a line feed behind the last line, if there is none. -/
def endLast (cs : List Char) : List Char :=
  if cs = [] ∨ cs.getLast? = some '\n' then cs else cs ++ ['\n']

/-- What is left of a text when only its lines are looked at. A carriage return joins the line feed
behind it twice: when the sides of a difference are prepared, and when they are split. -/
def levelled (s : String) : List Char :=
  endLast ((joinCrLf (joinCrLf s.toList)).map levelBreak)

theorem endLast_cons {cs : List Char} (c : Char) (h : cs ≠ []) :
    endLast (c :: cs) = c :: endLast cs := by
  obtain ⟨d, rest, rfl⟩ := List.exists_cons_of_ne_nil h
  simp only [endLast, List.cons_ne_nil, false_or, List.getLast?_cons_cons]
  split <;> rfl

theorem endLast_newline_cons (cs : List Char) : endLast ('\n' :: cs) = '\n' :: endLast cs := by
  cases cs with
  | nil => rfl
  | cons c cs => exact endLast_cons '\n' (List.cons_ne_nil c cs)

theorem joinCrLf_eq_nil_iff {cs : List Char} : joinCrLf cs = [] ↔ cs = [] := by
  constructor
  · intro h
    unfold joinCrLf at h
    split at h
    · rfl
    · cases h
    · cases h
  · rintro rfl
    rfl

/-- The lines of a text, each of them ended, are the text with its breaks levelled. -/
theorem flatMap_splitLines (cs : List Char) :
    (splitLines cs).flatMap (· ++ ['\n']) = endLast ((joinCrLf cs).map levelBreak) := by
  fun_induction splitLines cs with
  | case1 => rfl
  | case2 rest ih =>
      rw [List.flatMap_cons, ih, joinCrLf, List.map_cons]
      exact (endLast_newline_cons _).symm
  | case3 c rest hpair hbreak ih =>
      have hlevel : levelBreak c = '\n' := if_pos hbreak
      rw [List.flatMap_cons, ih, joinCrLf.eq_3 c rest hpair, List.map_cons, hlevel]
      exact (endLast_newline_cons _).symm
  | case4 c rest hpair hbreak hnone ih =>
      -- The last character of all: no break ends its line.
      obtain rfl := splitLines_eq_nil_iff.mp hnone
      have hlevel : levelBreak c = c := if_neg hbreak
      have hfeed : ¬ c = '\n' := by
        rintro rfl
        exact hbreak (by decide)
      rw [joinCrLf.eq_3 c [] hpair, joinCrLf, List.map_cons, List.map_nil, hlevel, endLast,
        if_neg (by simp [hfeed])]
      rfl
  | case5 c rest hpair hbreak line lines hsome ih =>
      have hlevel : levelBreak c = c := if_neg hbreak
      have hrest : (joinCrLf rest).map levelBreak ≠ [] := by
        rw [Ne, List.map_eq_nil_iff, joinCrLf_eq_nil_iff]
        rintro rfl
        cases hsome
      rw [hsome, List.flatMap_cons] at ih
      rw [joinCrLf.eq_3 c rest hpair, List.map_cons, hlevel, endLast_cons c hrest, ← ih]
      rfl

/-- Two texts have the same lines exactly when the same is left of both. -/
theorem comparedLines_eq_iff {first second : String} :
    comparedLines first = comparedLines second ↔ levelled first = levelled second := by
  have hlines : comparedLines first = comparedLines second
      ↔ splitLines (joinCrLf first.toList) = splitLines (joinCrLf second.toList) :=
    List.map_inj_right fun _ _ => String.ofList_inj.mp
  rw [hlines, levelled, levelled, ← flatMap_splitLines, ← flatMap_splitLines]
  constructor
  · intro h
    rw [h]
  · intro h
    have hsplit := congrArg splitLines h
    rwa [splitLines_ended (isLineBreak_of_mem_splitLines _),
      splitLines_ended (isLineBreak_of_mem_splitLines _)] at hsplit

/-- A text whose only breaks are line feeds, and which ends with one unless it is empty. -/
structure Levelled (s : String) : Prop where
  breaks : ∀ c ∈ s.toList, isLineBreak c = true → c = '\n'
  ended : s = "" ∨ s.toList.getLast? = some '\n'

theorem joinCrLf_of_notMem {cs : List Char} (h : '\r' ∉ cs) : joinCrLf cs = cs := by
  induction cs with
  | nil => rfl
  | cons c cs ih =>
      obtain ⟨hc, hcs⟩ := not_or.mp (List.mem_cons.not.mp h)
      rw [joinCrLf.eq_3 c cs fun rest hreturn => absurd hreturn (Ne.symm hc), ih hcs]

/-- All of such a text is left in its lines. -/
theorem Levelled.levelled_eq {s : String} (h : Levelled s) : levelled s = s.toList := by
  have hreturn : '\r' ∉ s.toList := by
    intro hmem
    cases h.breaks '\r' hmem (by decide)
  have hsame : s.toList.map levelBreak = s.toList := by
    refine List.map_congr_left (fun c hc => ?_) |>.trans (List.map_id _)
    unfold levelBreak
    split
    · rename_i hbreak
      exact (h.breaks c hc hbreak).symm
    · rfl
  rw [levelled, joinCrLf_of_notMem hreturn, joinCrLf_of_notMem hreturn, hsame, endLast, if_pos]
  exact h.ended.imp_left fun hempty => by rw [hempty]; rfl

/-! ### What is shown of two texts -/

/-- Nothing is shown of two texts exactly when they have the same lines, whatever the labels. -/
theorem unified_eq_empty_iff {old new oldLabel newLabel : String} :
    unified old new oldLabel newLabel = "" ↔ comparedLines old = comparedLines new := by
  constructor
  · intro hempty
    by_contra hdifferent
    -- The line with the first label is not empty.
    have hchars := congrArg String.toList hempty
    rw [unified, unifiedLines_of_ne hdifferent, String.toList_intercalate, List.map_cons,
      List.map_cons, List.intercalate_cons_cons, String.toList_append, List.append_assoc,
      List.append_assoc] at hchars
    cases hchars
  · intro hsame
    rw [unified, unifiedLines_of_eq hsame]
    rfl

end Diff

namespace Artifact

/-- What comes of a file whose text is another one: in every mode the status of the mode, and the
difference of both texts. -/
theorem status_and_difference_of_write [Interpreter] {host after : Host} {path : Path}
    {before content : String} {mode : WriteMode} {status : ArtifactStatus} {shown : String}
    (hcurrent : host.tree.currentText host.workingDirectory path = .ok before)
    (hne : before ≠ content) (h : write path content mode host = .ok (status, shown) after) :
    status = mode.status ∧ shown = difference path before content := by
  rw [write_apply, hcurrent] at h
  simp only [if_neg hne] at h
  split at h
  · rename_i happly
    subst happly
    split at h
    · cases h
      exact ⟨rfl, rfl⟩
    · cases h
  · cases h
    exact ⟨rfl, rfl⟩

/-- A file is unchanged when its text is the one to be written, and then nothing is shown. Of any
other file something is shown exactly when more than its breaks differ: the levelled texts do. That
is so for each change between texts whose only breaks are line feeds, one at the end. -/
theorem shown_of_write [Interpreter] {host after : Host} {path : Path} {content : String}
    {mode : WriteMode} {status : ArtifactStatus} {shown : String}
    (h : write path content mode host = .ok (status, shown) after) :
    ∃ before, host.tree.currentText host.workingDirectory path = .ok before ∧
      (status = .unchanged ↔ before = content) ∧
      (status = .unchanged → shown = "") ∧
      (status ≠ .unchanged →
        (shown = "" ↔ Diff.levelled before = Diff.levelled content) ∧
          (Diff.Levelled before → Diff.Levelled content → shown ≠ "")) := by
  have hout : mode.status ≠ .unchanged := by cases mode <;> decide
  cases hcurrent : host.tree.currentText host.workingDirectory path with
  | error error =>
      rw [write_apply, hcurrent] at h
      cases h
  | ok before =>
      refine ⟨before, rfl, ?_⟩
      by_cases hsame : before = content
      · rw [write_apply, hcurrent] at h
        simp only [if_pos hsame] at h
        cases h
        exact ⟨iff_of_true rfl hsame, fun _ => rfl, fun hne => absurd rfl hne⟩
      · obtain ⟨rfl, rfl⟩ := status_and_difference_of_write hcurrent hsame h
        have hshown : difference path before content = ""
            ↔ Diff.levelled before = Diff.levelled content := by
          rw [difference, Diff.unified_eq_empty_iff, Diff.comparedLines_eq_iff]
        refine ⟨iff_of_false hout hsame, fun hunchanged => absurd hunchanged hout,
          fun _ => ⟨hshown, fun hbefore hcontent hempty => ?_⟩⟩
        have hlevelled := hshown.mp hempty
        rw [hbefore.levelled_eq, hcontent.levelled_eq] at hlevelled
        exact hsame (String.toList_inj.mp hlevelled)

/-- A host with a module in its root directory. -/
def hostHolding (text : String) : Host :=
  { Compiler.bareHost with tree := ⟨[(["m.py"], .file (Utf8.encode text))]⟩ }

/-- A value that drifted is shown. -/
theorem shown_of_write_value :
    write ⟨.root, ["m.py"]⟩ "A = 2\n" .verify (hostHolding "A = 1\n")
        = .ok (.drift, "--- a//m.py\n+++ b//m.py\n@@ -1 +1 @@\n-A = 1\n+A = 2")
          (hostHolding "A = 1\n") ∧
      ∃ before, (hostHolding "A = 1\n").tree.currentText [] ⟨.root, ["m.py"]⟩ = .ok before ∧
        Diff.levelled before ≠ Diff.levelled "A = 2\n" := by
  have hshown : difference ⟨.root, ["m.py"]⟩ "A = 1\n" "A = 2\n"
      = "--- a//m.py\n+++ b//m.py\n@@ -1 +1 @@\n-A = 1\n+A = 2" := by decide
  have hwrite : write ⟨.root, ["m.py"]⟩ "A = 2\n" .verify (hostHolding "A = 1\n")
      = .ok (.drift, "--- a//m.py\n+++ b//m.py\n@@ -1 +1 @@\n-A = 1\n+A = 2")
        (hostHolding "A = 1\n") := by
    have hcurrent : (hostHolding "A = 1\n").tree.currentText [] ⟨.root, ["m.py"]⟩
        = .ok "A = 1\n" := by decide +kernel
    rw [← hshown]
    exact write_of_ne (by decide) hcurrent (by decide)
  obtain ⟨before, hcurrent, -, -, hout⟩ := shown_of_write hwrite
  refine ⟨hwrite, before, hcurrent, fun hlevelled => ?_⟩
  exact absurd ((hout (by decide)).1.mpr hlevelled) (by decide)

/-- A file without a line feed at its end is out of date, and nothing is shown of that. -/
theorem drift_lastBreak :
    write ⟨.root, ["m.py"]⟩ "a\n" .verify (hostHolding "a")
      = .ok (.drift, "") (hostHolding "a") := by
  have hshown : difference ⟨.root, ["m.py"]⟩ "a" "a\n" = "" := by decide
  have hcurrent : (hostHolding "a").tree.currentText [] ⟨.root, ["m.py"]⟩ = .ok "a" := by
    decide +kernel
  rw [← hshown]
  exact write_of_ne (by decide) hcurrent (by decide)

end Artifact

end HeaderBind
