import HeaderBind.Proofs.Stages
import HeaderBind.Text.ShellWord

/-!
# `HeaderBind.Proofs.Toolchain.Recorded`: recorded commands are read back

A command is recorded as one line of text. Whoever reads the line takes it for a command of a shell,
so it has to be split into the words that were launched. `Reader` is that side: it reads one
character after the other by the rules of a POSIX shell and knows nothing of how the line was made.
It refuses a line that is more than the words of one command, that is a character outside of quotes
that ends the command or stands for other text, and quotes that stay open.

The theorems:

* `Reader.read_quote`: a quoted word is read as that word, whatever its characters, and the reader
  stands outside of quotes behind it. The safe characters are read as they are; between single
  quotes everything is, and a single quote is spliced in between double quotes.
* `split?_join`: the words of a command come back from its line, all of them and nothing else, so
  different commands have different lines. What a toolchain has recorded of a probe is split into
  just the commands that it launched.
-/

set_option autoImplicit false

namespace HeaderBind

namespace ShellWord

/-! ### A reader of commands -/

/-- How the next character of a command is taken. -/
inductive Quoting where
  /-- Outside of quotes. -/
  | bare
  /-- Outside of quotes, behind a backslash. -/
  | escaped
  /-- Between single quotes. -/
  | single
  /-- Between double quotes. -/
  | double
  /-- Between double quotes, behind a backslash. -/
  | doubleEscaped
  deriving DecidableEq, Repr

/-- Whether `c` stands between two words. -/
def isSeparator (c : Char) : Bool :=
  c == ' ' || c == '\t'

/-- Whether `c` stands for other text, also between double quotes. -/
def isExpanded (c : Char) : Bool :=
  "$`".toList.contains c

/-- Whether `c` ends a command or stands for other text, unless it is between quotes. -/
def isActive (c : Char) : Bool :=
  "$`\n|&;<>()*?[#~".toList.contains c

/-- Whether a backslash between double quotes takes the meaning from `c`. -/
def isEscapable (c : Char) : Bool :=
  isExpanded c || c == '"' || c == '\\'

/-- A reader in the middle of a command: the words that are complete, and the one at hand, if there
is one. A word may have begun and be empty. -/
structure Reader where
  words : List String
  word : Option (List Char)
  quoting : Quoting
  deriving DecidableEq, Repr

namespace Reader

/-- A reader in front of a command. -/
def start : Reader :=
  ⟨[], none, .bare⟩

/-- The same reader takes the next character otherwise. -/
def turn (reader : Reader) (quoting : Quoting) : Reader :=
  { reader with quoting := quoting }

/-- A quote begins a word, unless there is one at hand. -/
def enter (reader : Reader) (quoting : Quoting) : Reader :=
  ⟨reader.words, some (reader.word.getD []), quoting⟩

/-- One more character of the word at hand. -/
def put (reader : Reader) (c : Char) (quoting : Quoting) : Reader :=
  ⟨reader.words, some (reader.word.getD [] ++ [c]), quoting⟩

/-- The word at hand is complete. -/
def finish (reader : Reader) : Reader :=
  ⟨reader.words ++ (reader.word.map String.ofList).toList, none, .bare⟩

/-- Reads one character. A backslash in front of a line feed is no character of the word, and
neither is the line feed. -/
def step (reader : Reader) (c : Char) : Option Reader :=
  match reader.quoting with
  | .bare =>
    if isSeparator c then some reader.finish
    else if c = '\'' then some (reader.enter .single)
    else if c = '"' then some (reader.enter .double)
    else if c = '\\' then some (reader.turn .escaped)
    else if isActive c then none
    else some (reader.put c .bare)
  | .escaped =>
    if c = '\n' then some (reader.turn .bare) else some (reader.put c .bare)
  | .single =>
    if c = '\'' then some (reader.turn .bare) else some (reader.put c .single)
  | .double =>
    if c = '"' then some (reader.turn .bare)
    else if c = '\\' then some (reader.turn .doubleEscaped)
    else if isExpanded c then none
    else some (reader.put c .double)
  | .doubleEscaped =>
    if c = '\n' then some (reader.turn .double)
    else if isEscapable c then some (reader.put c .double)
    else some ((reader.put '\\' .double).put c .double)

/-- Reads characters one after the other. -/
def read (reader : Reader) (cs : List Char) : Option Reader :=
  cs.foldlM step reader

end Reader

/-- The words that a shell splits a command into. -/
def split? (command : String) : Option (List String) := do
  let reader ← Reader.start.read command.toList
  if reader.quoting = .bare then some reader.finish.words else none

example : split? "cc -o 'a b' \"c'd\"e\\ f" = some ["cc", "-o", "a b", "c'de f"] := by decide

/-! ### Reading a quoted word -/

namespace Reader

theorem read_append (reader : Reader) (cs ds : List Char) :
    reader.read (cs ++ ds) = (reader.read cs).bind fun between => between.read ds :=
  List.foldlM_append

theorem read_cons (reader : Reader) (c : Char) (cs : List Char) :
    reader.read (c :: cs) = (reader.step c).bind fun between => between.read cs :=
  List.foldlM_cons

/-- A safe character means nothing to a shell, so it is read as it is. -/
theorem step_of_isSafe {c : Char} (h : isSafe c = true) (words : List String)
    (word : Option (List Char)) :
    step ⟨words, word, .bare⟩ c = some ⟨words, some (word.getD [] ++ [c]), .bare⟩ := by
  have hne : ∀ d, isSafe d = false → c ≠ d := by
    rintro d hd rfl
    rw [hd] at h
    cases h
  have hactive : isActive c = false := by
    have hnone : ("$`\n|&;<>()*?[#~".toList.all fun d => isSafe d == false) = true := by decide
    refine Bool.eq_false_iff.mpr fun hmem => hne c ?_ rfl
    exact eq_of_beq (List.all_eq_true.mp hnone c (List.contains_iff_mem.mp hmem))
  have hseparator : isSeparator c = false := by
    rw [isSeparator, Bool.or_eq_false_iff, beq_eq_false_iff_ne, beq_eq_false_iff_ne]
    exact ⟨hne ' ' (by decide), hne '\t' (by decide)⟩
  simp only [step, hseparator, hactive, hne '\'' (by decide), hne '"' (by decide),
    hne '\\' (by decide), Bool.false_eq_true, if_false, put]

theorem read_of_isSafe {cs : List Char} (h : ∀ c ∈ cs, isSafe c = true) (words : List String)
    (word : List Char) :
    read ⟨words, some word, .bare⟩ cs = some ⟨words, some (word ++ cs), .bare⟩ := by
  induction cs generalizing word with
  | nil => rw [List.append_nil]; rfl
  | cons c cs ih =>
      obtain ⟨hc, hcs⟩ := List.forall_mem_cons.mp h
      rw [read_cons, step_of_isSafe hc, Option.bind_some, ih hcs, Option.getD_some,
        List.append_assoc, List.singleton_append]

/-- One character of a word between single quotes. The single quote itself ends the quotes, stands
between double ones, and begins the quotes again. -/
theorem read_quoteChar (c : Char) (words : List String) (word : List Char) :
    read ⟨words, some word, .single⟩ (quoteChar c)
      = some ⟨words, some (word ++ [c]), .single⟩ := by
  by_cases hc : c = '\''
  · subst hc
    rfl
  · have hstep : step ⟨words, some word, .single⟩ c
        = some ⟨words, some (word ++ [c]), .single⟩ := if_neg hc
    rw [quoteChar, if_neg hc, read_cons, hstep]
    rfl

theorem read_flatMap_quoteChar (cs : List Char) (words : List String) (word : List Char) :
    read ⟨words, some word, .single⟩ (cs.flatMap quoteChar)
      = some ⟨words, some (word ++ cs), .single⟩ := by
  induction cs generalizing word with
  | nil => rw [List.append_nil]; rfl
  | cons c cs ih =>
      rw [List.flatMap_cons, read_append, read_quoteChar, Option.bind_some, ih, List.append_assoc,
        List.singleton_append]

/-- A quoted word is read as the word, and the reader stands outside of quotes behind it. -/
theorem read_quote (word : String) (words : List String) :
    read ⟨words, none, .bare⟩ (quote word).toList = some ⟨words, some word.toList, .bare⟩ := by
  simp only [quote]
  split
  · -- The word stands as it is, and its first character begins it.
    rename_i hsafe
    obtain ⟨hnonempty, hall⟩ := Bool.and_eq_true_iff.mp hsafe
    cases hchars : word.toList with
    | nil =>
        rw [hchars] at hnonempty
        cases hnonempty
    | cons c cs =>
        rw [hchars] at hall
        obtain ⟨hc, hcs⟩ := List.forall_mem_cons.mp (List.all_eq_true.mp hall)
        rw [read_cons, step_of_isSafe hc, Option.bind_some, read_of_isSafe hcs]
        rfl
  · -- The quote begins the word, so that it is there even if it is empty.
    have hopen : step ⟨words, none, .bare⟩ '\'' = some ⟨words, some [], .single⟩ := rfl
    have hclose : read ⟨words, some word.toList, .single⟩ ['\'']
        = some ⟨words, some word.toList, .bare⟩ := rfl
    rw [String.toList_ofList, List.cons_append, read_cons, hopen, Option.bind_some, read_append,
      read_flatMap_quoteChar, Option.bind_some, List.nil_append, hclose]

/-- Behind the line of a command, its words are complete but for the last one, which is at hand. -/
theorem read_join (commands words : List String) :
    ∃ reader, read ⟨words, none, .bare⟩ (join commands).toList = some reader ∧
      reader.quoting = .bare ∧ reader.finish.words = words ++ commands := by
  have hline : ∀ texts : List String,
      (join texts).toList = [' '].intercalate (texts.map fun text => (quote text).toList) := by
    intro texts
    rw [join, String.toList_intercalate, List.map_map]
    rfl
  induction commands generalizing words with
  | nil => exact ⟨⟨words, none, .bare⟩, rfl, rfl, rfl⟩
  | cons first rest ih =>
      cases rest with
      | nil =>
          refine ⟨⟨words, some first.toList, .bare⟩, ?_, rfl, ?_⟩
          · rw [hline, List.map_singleton, List.intercalate_singleton, read_quote]
          · simp [finish]
      | cons second rest =>
          -- The space completes the first word, and the rest is read behind it.
          obtain ⟨reader, hread, hquoting, hwords⟩ := ih (words ++ [first])
          have hspace : read ⟨words, some first.toList, .bare⟩ [' ']
              = some ⟨words ++ [first], none, .bare⟩ := by
            rw [read_cons]
            show some (finish ⟨words, some first.toList, .bare⟩) = _
            simp [finish]
          refine ⟨reader, ?_, hquoting, by rw [hwords, List.append_assoc]; rfl⟩
          have hrest := hline (second :: rest)
          rw [List.map_cons] at hrest
          rw [hline, List.map_cons, List.map_cons, List.intercalate_cons_cons, ← hrest,
            List.append_assoc, read_append, read_quote, Option.bind_some, read_append,
            hspace, Option.bind_some, hread]

end Reader

/-- The words of a command come back from its line. -/
theorem split?_join_eq (command : List String) : split? (join command) = some command := by
  obtain ⟨reader, hread, hquoting, hwords⟩ := Reader.read_join command []
  rw [split?, Reader.start, hread]
  show (if reader.quoting = .bare then some reader.finish.words else none) = _
  rw [if_pos hquoting, hwords, List.nil_append]

end ShellWord

namespace Toolchain

open Effect

/-- What is recorded of a probe is split into the commands that were launched, and behind them the
one that could not be, if it came to that. -/
theorem split?_recorded_probe (settings : ToolchainSettings) (source : String) (bench : Bench) :
    ∃ commands refused,
      (left (probe settings source bench)).host.launched = bench.host.launched ++ commands ∧
      refused.length ≤ 1 ∧ (∀ command ∈ refused, isLaunchable command = false) ∧
      ∃ lines, (left (probe settings source bench)).recorded = bench.recorded ++ lines ∧
        lines.map ShellWord.split? = (commands ++ refused).map some := by
  obtain ⟨commands, refused, compiled, houtcome, hleft⟩ := outcome_stages settings
    (probeFiles bench.host.family (scratchDirectory bench.host)) (prepared source bench)
  obtain ⟨hone, hunlaunchable⟩ := houtcome.refused_spec
  rw [left_probe, hleft]
  refine ⟨commands, refused, rfl, hone, hunlaunchable, (commands ++ refused).map ShellWord.join, ?_,
    ?_⟩
  · rw [List.map_append, ← List.append_assoc]
    rfl
  · rw [List.map_map]
    exact List.map_congr_left fun command _ => ShellWord.split?_join_eq command

end Toolchain

/-- A recorded command is split into its own words, so different commands are recorded differently,
and the lines that a toolchain records of a probe are split into the commands that it launches, with
at most one behind them that has a zero character in a word and cannot be launched. -/
theorem ShellWord.split?_join :
    (∀ command, split? (join command) = some command) ∧ Function.Injective join ∧
      ∀ settings source bench, ∃ commands refused,
        (Effect.left (Toolchain.probe settings source bench)).host.launched
            = bench.host.launched ++ commands ∧
        refused.length ≤ 1 ∧ (∀ command ∈ refused, Toolchain.isLaunchable command = false) ∧
        ∃ lines, (Effect.left (Toolchain.probe settings source bench)).recorded
            = bench.recorded ++ lines ∧ lines.map split? = (commands ++ refused).map some := by
  refine ⟨split?_join_eq, fun command other hlines => ?_, Toolchain.split?_recorded_probe⟩
  have hsplit := congrArg split? hlines
  rw [split?_join_eq, split?_join_eq] at hsplit
  exact Option.some.inj hsplit

end HeaderBind
