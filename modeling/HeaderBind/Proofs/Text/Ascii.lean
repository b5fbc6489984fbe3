import HeaderBind.Name
import HeaderBind.Text.Lines
import HeaderBind.Text.Numeral
import HeaderBind.Text.Word
import Mathlib.Data.List.TakeWhile

/-!
# `HeaderBind.Proofs.Text.Ascii`: visible text, and what reading does to it

Whatever a probe prints as a result, and whatever a module says in a line of code, is written in
visible ASCII characters. The classes of Unicode characters that the readers look for have nothing
in common with them, or agree with the ASCII class of the same name: nothing is trimmed off a
visible text, no line ends within it, and its digits have the values that they have in ASCII.

The tables of the classes are opened here and nowhere else.
-/

set_option autoImplicit false

namespace HeaderBind

namespace Text

/-- Whether `c` is a visible character of ASCII: neither a control character nor a blank. -/
def isVisible (c : Char) : Bool :=
  0x20 < c.toNat && c.toNat < 0x7f

/-- Whether all characters of a text are visible. -/
def Visible (cs : List Char) : Prop :=
  ∀ c ∈ cs, isVisible c = true

namespace Visible

theorem nil : Visible [] := fun _ h => nomatch h

theorem cons {c : Char} {cs : List Char} (hc : isVisible c = true) (h : Visible cs) :
    Visible (c :: cs) := by
  intro d hd
  rcases List.mem_cons.mp hd with rfl | hd
  · exact hc
  · exact h d hd

theorem append {before after : List Char} (h : Visible before) (h' : Visible after) :
    Visible (before ++ after) := by
  intro c hc
  rcases List.mem_append.mp hc with hc | hc
  · exact h c hc
  · exact h' c hc

theorem flatMap {α : Type} {items : List α} {text : α → List Char}
    (h : ∀ item ∈ items, Visible (text item)) : Visible (items.flatMap text) := by
  intro c hc
  obtain ⟨item, hitem, hc⟩ := List.mem_flatMap.mp hc
  exact h item hitem c hc

theorem intercalate {separator : List Char} {texts : List (List Char)}
    (hseparator : Visible separator) (h : ∀ text ∈ texts, Visible text) :
    Visible (separator.intercalate texts) := by
  induction texts with
  | nil => exact nil
  | cons text texts ih =>
      obtain ⟨htext, hrest⟩ := List.forall_mem_cons.mp h
      cases texts with
      | nil =>
          rw [List.intercalate_singleton]
          exact htext
      | cons other texts =>
          rw [List.intercalate_cons_cons]
          exact (htext.append hseparator).append (ih hrest)

end Visible

/-! ### Classes of characters -/

theorem toNat_of_isVisible {c : Char} (h : isVisible c = true) :
    0x20 < c.toNat ∧ c.toNat < 0x7f := by
  simpa [isVisible] using h

theorem isVisible_of_toNat {c : Char} (h : 0x20 < c.toNat) (h' : c.toNat < 0x7f) :
    isVisible c = true := by
  simp [isVisible, h, h']

/-- The white space of ASCII lies below the visible characters, all other above them. -/
theorem isBlank_of_isVisible {c : Char} (h : isVisible c = true) : isBlank c = false := by
  have hc := toNat_of_isVisible h
  simp only [isBlank, inRanges, blankRanges, List.any_cons, List.any_nil, Bool.or_eq_false_iff,
    Bool.and_eq_false_iff, decide_eq_false_iff_not, and_true]
  omega

theorem isMargin_of_isVisible {c : Char} (h : isVisible c = true) :
    Numeral.isMargin c = false := by
  simp [Numeral.isMargin, isBlank_of_isVisible h]

theorem ne_of_toNat_ne {c d : Char} (h : c.toNat ≠ d.toNat) : c ≠ d :=
  fun heq => h (heq ▸ rfl)

theorem isLineBreak_of_isVisible {c : Char} (h : isVisible c = true) : isLineBreak c = false := by
  have hc := toNat_of_isVisible h
  have hne : ∀ d : Char, (d.toNat ≤ 0x20 ∨ 0x7f ≤ d.toNat) → (c == d) = false := by
    intro d hd
    refine beq_eq_false_iff_ne.mpr (ne_of_toNat_ne ?_)
    omega
  simp only [isLineBreak, Bool.or_eq_false_iff]
  refine ⟨⟨⟨⟨⟨⟨⟨⟨⟨?_, ?_⟩, ?_⟩, ?_⟩, ?_⟩, ?_⟩, ?_⟩, ?_⟩, ?_⟩, ?_⟩ <;> exact hne _ (by decide)

/-- The characters of a name by their code points. -/
theorem toNat_of_isNameChar {c : Char} (h : Name.isNameChar c = true) :
    (0x30 ≤ c.toNat ∧ c.toNat ≤ 0x39) ∨ (0x41 ≤ c.toNat ∧ c.toNat ≤ 0x5a) ∨ c.toNat = 0x5f ∨
      (0x61 ≤ c.toNat ∧ c.toNat ≤ 0x7a) := by
  change (((decide (0x41 ≤ c.val ∧ c.val ≤ 0x5a) || (0x61 ≤ c.val && c.val ≤ 0x7a)) ||
    (0x30 ≤ c.val && c.val ≤ 0x39)) || c == '_') = true at h
  simp only [Bool.or_eq_true, Bool.and_eq_true, decide_eq_true_eq, beq_iff_eq,
    UInt32.le_iff_toNat_le] at h
  rcases h with ((h | h) | h) | rfl
  · exact Or.inr (Or.inl h)
  · exact Or.inr (Or.inr (Or.inr h))
  · exact Or.inl h
  · exact Or.inr (Or.inr (Or.inl rfl))

theorem isVisible_of_isNameChar {c : Char} (h : Name.isNameChar c = true) :
    isVisible c = true := by
  have hc := toNat_of_isNameChar h
  exact isVisible_of_toNat (by omega) (by omega)

/-- An identifier is not empty, and all its characters may stand in a name. -/
theorem isNameChar_of_isIdentifier {cs : List Char} (h : Name.isIdentifier cs = true) :
    cs ≠ [] ∧ ∀ c ∈ cs, Name.isNameChar c = true := by
  cases cs with
  | nil => cases h
  | cons c cs =>
      have hboth : (Name.isStartChar c && cs.all Name.isNameChar) = true := h
      obtain ⟨hstart, hrest⟩ := Bool.and_eq_true_iff.mp hboth
      refine ⟨List.cons_ne_nil c cs, fun d hd => ?_⟩
      rcases List.mem_cons.mp hd with rfl | hd
      · simp only [Name.isStartChar, Bool.or_eq_true] at hstart
        rcases hstart with halpha | hunder
        · simp [Name.isNameChar, Char.isAlphanum, halpha]
        · simp [Name.isNameChar, hunder]
      · exact List.all_eq_true.mp hrest d hd

theorem visible_of_isIdentifier {cs : List Char} (h : Name.isIdentifier cs = true) : Visible cs :=
  fun c hc => isVisible_of_isNameChar ((isNameChar_of_isIdentifier h).2 c hc)

/-- A character with another code point than those of names is in no name. -/
theorem ne_of_isNameChar {c d : Char} (h : Name.isNameChar c = true)
    (hd : Name.isNameChar d = false) : c ≠ d := by
  rintro rfl
  rw [h] at hd
  cases hd

theorem isWordChar_of_isNameChar {c : Char} (h : Name.isNameChar c = true) :
    isWordChar c = true := by
  have hname : (c.isAlphanum || c == '_') = true := h
  simp [isWordChar, hname]

theorem toNat_of_isDigit {c : Char} (h : c.isDigit = true) :
    0x30 ≤ c.toNat ∧ c.toNat ≤ 0x39 :=
  Char.isDigit_iff_toNat.mp h

theorem isVisible_of_isDigit {c : Char} (h : c.isDigit = true) : isVisible c = true := by
  have hc := toNat_of_isDigit h
  exact isVisible_of_toNat (by omega) (by omega)

/-- The digits of ASCII are the first decimal system of the table. -/
theorem digitValue?_of_isDigit {c : Char} (h : c.isDigit = true) :
    digitValue? c = some (c.toNat - '0'.toNat) := by
  obtain ⟨hlow, hhigh⟩ := toNat_of_isDigit h
  have hzero : (decide (0x30 ≤ c.toNat) && decide (c.toNat < 0x30 + 10)) = true := by
    simp only [Bool.and_eq_true, decide_eq_true_eq]
    omega
  simp only [digitValue?, decimalZeros, List.find?_cons, hzero, Option.map_some]
  rfl

theorem isDecimalDigit_of_isDigit {c : Char} (h : c.isDigit = true) :
    isDecimalDigit c = true := by
  rw [isDecimalDigit, digitValue?_of_isDigit h]
  rfl

/-! ### Trimming, lines and runs of characters -/

/-- Nothing is stripped off a text whose ends stay. -/
theorem trimBy_eq_self_of_ends {strip : Char → Bool} {cs : List Char}
    (hfirst : ∀ c, cs.head? = some c → strip c = false)
    (hlast : ∀ c, cs.getLast? = some c → strip c = false) : trimBy strip cs = cs := by
  have hdrop : ∀ ds : List Char, (∀ d, ds.head? = some d → strip d = false) →
      ds.dropWhile strip = ds := by
    intro ds hds
    cases ds with
    | nil => rfl
    | cons d ds => rw [List.dropWhile_cons, hds d rfl, if_neg Bool.false_ne_true]
  rw [trimBy, hdrop cs hfirst, hdrop cs.reverse (by rw [List.head?_reverse]; exact hlast),
    List.reverse_reverse]

/-- Nothing is stripped off a text without characters to strip. -/
theorem trimBy_eq_self {strip : Char → Bool} {cs : List Char} (h : ∀ c ∈ cs, strip c = false) :
    trimBy strip cs = cs :=
  trimBy_eq_self_of_ends (fun c hc => h c (List.mem_of_head? hc)) fun c hc =>
    h c (List.mem_of_getLast? hc)

/-- A character to strip makes no difference at the end. -/
theorem trimBy_append_singleton {strip : Char → Bool} {c : Char} (cs : List Char)
    (h : strip c = true) : trimBy strip (cs ++ [c]) = trimBy strip cs := by
  have halone : [c].dropWhile strip = [] := by rw [List.dropWhile_cons_of_pos h, List.dropWhile_nil]
  rw [trimBy, trimBy, List.dropWhile_append, halone]
  by_cases hempty : (cs.dropWhile strip).isEmpty = true
  · -- Everything in front is stripped as well.
    rw [if_pos hempty, List.isEmpty_iff.mp hempty]
  · rw [if_neg hempty, List.reverse_append, List.reverse_singleton, List.singleton_append,
      List.dropWhile_cons_of_pos h]

/-- Nothing is left of a text when all of it is stripped. -/
theorem trimBy_eq_nil_iff {strip : Char → Bool} {cs : List Char} :
    trimBy strip cs = [] ↔ ∀ c ∈ cs, strip c = true := by
  rw [trimBy, List.reverse_eq_nil_iff]
  constructor
  · intro h
    induction cs with
    | nil => exact nofun
    | cons c cs ih =>
        by_cases hc : strip c = true
        · rw [List.dropWhile_cons_of_pos hc] at h
          exact List.forall_mem_cons.mpr ⟨hc, ih h⟩
        · -- The first character stays, and so it is not stripped from the end either.
          rw [List.dropWhile_cons_of_neg hc, List.dropWhile_eq_nil_iff] at h
          exact absurd (h c (List.mem_reverse.mpr List.mem_cons_self)) hc
  · intro h
    rw [List.dropWhile_eq_nil_iff.mpr h]
    rfl

theorem Visible.trimChars {cs : List Char} (h : Visible cs) : trimChars cs = cs :=
  trimBy_eq_self fun c hc => isBlank_of_isVisible (h c hc)

theorem Visible.trim {s : String} (h : Visible s.toList) : trim s = s := by
  rw [Text.trim, h.trimChars, String.ofList_toList]

theorem splitLines_eq_nil_iff {cs : List Char} : splitLines cs = [] ↔ cs = [] := by
  constructor
  · intro h
    unfold splitLines at h
    split at h
    · rfl
    · cases h
    · split at h
      · cases h
      · split at h <;> cases h
  · rintro rfl
    rfl

/-- A break in front ends an empty line, unless it is the first half of a break of two
characters. -/
theorem splitLines_cons_of_isLineBreak {c : Char} {rest : List Char} (hc : isLineBreak c = true)
    (hpair : ∀ rest', c = '\r' → rest = '\n' :: rest' → False) :
    splitLines (c :: rest) = [] :: splitLines rest := by
  rw [splitLines.eq_3 c rest hpair, if_pos hc]

/-- Any other character in front belongs to the first line. -/
theorem splitLines_cons_of_not_isLineBreak {c : Char} {rest : List Char}
    (hc : isLineBreak c = false) :
    splitLines (c :: rest) = match splitLines rest with
      | [] => [[c]]
      | line :: lines => (c :: line) :: lines := by
  -- A carriage return is a break itself, so the rule for the pair of both does not apply.
  have hreturn : c ≠ '\r' := by
    rintro rfl
    exact absurd hc (by decide)
  have hbreak : ¬ isLineBreak c = true := by simp only [hc, Bool.false_eq_true, not_false_eq_true]
  exact (splitLines.eq_3 c rest fun _ hsame => absurd hsame hreturn).trans (if_neg hbreak)

/-- A line without a break in it is split off at the line feed behind it. -/
theorem splitLines_append_newline {line : List Char} (rest : List Char)
    (h : ∀ c ∈ line, isLineBreak c = false) :
    splitLines (line ++ '\n' :: rest) = line :: splitLines rest := by
  induction line with
  | nil => rfl
  | cons c line ih =>
      rw [List.cons_append, splitLines_cons_of_not_isLineBreak (h c List.mem_cons_self),
        ih fun d hd => h d (List.mem_cons_of_mem c hd)]

/-- A text without a break is one line. -/
theorem splitLines_eq_singleton {line : List Char} (hne : line ≠ [])
    (h : ∀ c ∈ line, isLineBreak c = false) : splitLines line = [line] := by
  induction line with
  | nil => exact absurd rfl hne
  | cons c rest ih =>
      obtain ⟨hc, hrest⟩ := List.forall_mem_cons.mp h
      rw [splitLines_cons_of_not_isLineBreak hc]
      cases rest with
      | nil => rfl
      | cons d rest => rw [ih (List.cons_ne_nil d rest) hrest]

/-- Lines that are joined by line feeds are split into themselves. -/
theorem splitLines_intercalate {lines : List (List Char)} (hne : ∀ line ∈ lines, line ≠ [])
    (h : ∀ line ∈ lines, ∀ c ∈ line, isLineBreak c = false) :
    splitLines (['\n'].intercalate lines) = lines := by
  induction lines with
  | nil => rfl
  | cons line lines ih =>
      obtain ⟨hline, hothers⟩ := List.forall_mem_cons.mp hne
      obtain ⟨hclean, hrest⟩ := List.forall_mem_cons.mp h
      cases lines with
      | nil =>
          rw [List.intercalate_singleton]
          exact splitLines_eq_singleton hline hclean
      | cons next lines =>
          rw [List.intercalate_cons_cons, List.append_assoc, List.singleton_append,
            splitLines_append_newline _ hclean, ih hothers hrest]

/-- No line has a break in it. -/
theorem isLineBreak_of_mem_splitLines (cs : List Char) :
    ∀ line ∈ splitLines cs, ∀ c ∈ line, isLineBreak c = false := by
  fun_induction splitLines cs with
  | case1 => exact nofun
  | case2 rest ih => exact List.forall_mem_cons.mpr ⟨nofun, ih⟩
  | case3 c rest _ hbreak ih => exact List.forall_mem_cons.mpr ⟨nofun, ih⟩
  | case4 c rest _ hbreak hnone ih =>
      refine List.forall_mem_cons.mpr ⟨?_, nofun⟩
      simpa using hbreak
  | case5 c rest _ hbreak line lines hsome ih =>
      rw [hsome] at ih
      obtain ⟨hline, hlines⟩ := List.forall_mem_cons.mp ih
      refine List.forall_mem_cons.mpr ⟨List.forall_mem_cons.mpr ⟨?_, hline⟩, hlines⟩
      simpa using hbreak

/-- Lines without a break in them, each ended by a line feed, are split into just these lines. -/
theorem splitLines_ended {lines : List (List Char)}
    (h : ∀ line ∈ lines, ∀ c ∈ line, isLineBreak c = false) :
    splitLines (lines.flatMap (· ++ ['\n'])) = lines := by
  induction lines with
  | nil => rfl
  | cons line lines ih =>
      obtain ⟨hline, hlines⟩ := List.forall_mem_cons.mp h
      rw [List.flatMap_cons, List.append_assoc, List.singleton_append,
        splitLines_append_newline _ hline, ih hlines]

/-- Visible lines have no breaks in them. -/
theorem splitLines_flatMap_newline {lines : List (List Char)} (h : ∀ line ∈ lines, Visible line) :
    splitLines (lines.flatMap (· ++ ['\n'])) = lines :=
  splitLines_ended fun line hline c hc => isLineBreak_of_isVisible (h line hline c hc)

/-- A run of characters of a class ends where the first other character stands. -/
theorem takeWhile_append_cons {p : Char → Bool} {run : List Char} {c : Char} (rest : List Char)
    (hrun : ∀ d ∈ run, p d = true) (hc : p c = false) :
    (run ++ c :: rest).takeWhile p = run := by
  rw [List.takeWhile_append_of_pos hrun, List.takeWhile_cons_of_neg (by simp [hc]),
    List.append_nil]

theorem dropWhile_append_cons {p : Char → Bool} {run : List Char} {c : Char} (rest : List Char)
    (hrun : ∀ d ∈ run, p d = true) (hc : p c = false) :
    (run ++ c :: rest).dropWhile p = c :: rest := by
  rw [List.dropWhile_append_of_pos hrun, List.dropWhile_cons_of_neg (by simp [hc])]

/-- A text behind which separators with further texts may follow is split off at the first
separator. -/
theorem splitOn_flatMap_cons {separator : Char} {first : List Char} {rest : List (List Char)}
    (hfirst : separator ∉ first) (hrest : ∀ text ∈ rest, separator ∉ text) :
    (first ++ rest.flatMap (separator :: ·)).splitOn separator = first :: rest := by
  induction rest generalizing first with
  | nil => rw [List.flatMap_nil, List.append_nil, List.splitOn_eq_singleton hfirst]
  | cons text rest ih =>
      rw [List.flatMap_cons, List.cons_append, List.splitOn_append_cons_self_of_not_mem hfirst,
        ih (hrest text List.mem_cons_self) fun other hother =>
          hrest other (List.mem_cons_of_mem text hother)]

/-- Texts with separators between them are split into what each of them is split into. -/
theorem splitOn_intercalate_flatMap {separator : Char} {texts : List (List Char)}
    (h : texts ≠ []) :
    ([separator].intercalate texts).splitOn separator
      = texts.flatMap fun text => text.splitOn separator := by
  induction texts with
  | nil => exact absurd rfl h
  | cons text texts ih =>
      cases texts with
      | nil => rw [List.intercalate_singleton, List.flatMap_cons, List.flatMap_nil, List.append_nil]
      | cons other texts =>
          rw [List.intercalate_cons_cons, List.append_assoc, List.singleton_append,
            List.splitOn_append_cons_self, ih (List.cons_ne_nil _ _)]
          rfl

/-- A character apart from the separator stands in a joined text when it stands in a piece. -/
theorem mem_intercalate_iff {c separator : Char} (hc : c ≠ separator) {pieces : List (List Char)} :
    c ∈ [separator].intercalate pieces ↔ ∃ piece ∈ pieces, c ∈ piece := by
  induction pieces with
  | nil => simp
  | cons first rest ih =>
      cases rest with
      | nil => simp
      | cons second rest =>
          rw [List.intercalate_cons_cons, List.mem_append, List.mem_append, ih,
            List.mem_singleton, or_iff_left hc]
          simp only [List.mem_cons (b := first), or_and_right, exists_or, exists_eq_left]

end Text

end HeaderBind
