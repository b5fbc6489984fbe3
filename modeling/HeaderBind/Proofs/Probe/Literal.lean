import HeaderBind.Probe.Source
import HeaderBind.Proofs.Module.Lines
import HeaderBind.Proofs.Name
import HeaderBind.Proofs.Text.Trim

/-!
# `HeaderBind.Proofs.Probe.Literal`: the literals in a probe program

What a program prints is decided by the literals in its text. Here they are read off the text,
without regard to how it was put together: `formats` goes through the lines, and from each line that
is a call of `printf` it takes what stands between the first quotes.

In the program for some declarations, `formats_source` finds the literals of their calls, in order,
and behind those that the headers bring nothing else. A header is any text, so it may bring
anything; the lines for a declaration show no more than its names, and a name holds no quote.
-/

set_option autoImplicit false

namespace HeaderBind

open HeaderBind.Text

/-- The names of a declaration that go into a probe program are ASCII identifiers. In front of the
name of a structure there may be the word `struct`. -/
inductive Declaration.Identified : Declaration → Prop
  | constant {c : Constant} (source : Name.isIdentifier c.source.toList = true) :
      Identified (.constant c)
  | struct {s : Struct} (base : Name.isIdentifier s.base.toList = true)
      (spelled : Name.structBase s.name = s.base)
      (members : ∀ member ∈ s.members, Name.isIdentifier member.toList = true) :
      Identified (.struct s)

/-- Apart from its base there is only the word and blanks in the name of a structure. -/
theorem Name.lacks_of_structBase {s : String} {c : Char} (hbase : Lacks c (structBase s))
    (hblank : isBlank c = false) (htag : c ∉ structTag) : Lacks c s := by
  have hnoBlank : ∀ {cs : List Char}, (∀ d ∈ cs, isBlank d = true) → c ∉ cs := by
    intro cs hcs hc
    rw [hcs c hc] at hblank
    cases hblank
  have htrimmed : c ∉ trimChars s.toList := by
    rw [Lacks, structBase, String.toList_ofList] at hbase
    cases hafter : afterStructTag? (trimChars s.toList) with
    | none =>
        rw [hafter] at hbase
        exact hbase
    | some base =>
        rw [hafter] at hbase
        obtain ⟨d, rest, hsplit, hd, rfl⟩ := afterStructTag?_eq_some_iff.mp hafter
        have hrest : c ∉ rest := by
          rw [← List.takeWhile_append_dropWhile (p := isBlank) (l := rest), List.mem_append, not_or]
          exact ⟨hnoBlank fun e he => List.mem_takeWhile_imp he, hbase⟩
        rw [hsplit, List.mem_append, List.mem_cons, not_or, not_or]
        exact ⟨htag, fun hc => hnoBlank (List.forall_mem_singleton.mpr hd) (by simp [hc]), hrest⟩
  obtain ⟨front, back, hsplit, hfront, hback⟩ := exists_eq_append_trimBy isBlank s.toList
  rw [Lacks, hsplit, List.mem_append, List.mem_append, not_or, not_or]
  exact ⟨⟨hnoBlank hfront, htrimmed⟩, hnoBlank hback⟩

namespace Probe

/-! ### Literals in a text -/

/-- How a call of `printf` starts. -/
def callMark : List Char :=
  "printf(\"".toList

/-- The literal of the call that a line is, if it is one. -/
def formatOfLine? (line : List Char) : Option (List Char) :=
  (callMark.isPrefixOf? (line.dropWhile (· == ' '))).map fun rest => rest.takeWhile (· != '"')

/-- The literals of the calls in a text, line by line. -/
def formatsIn (text : List Char) : List (List Char) :=
  (text.splitOn '\n').filterMap formatOfLine?

/-- The literals of the calls in a program. -/
def formats (program : String) : List (List Char) :=
  formatsIn program.toList

/-- A line feed ends a call. -/
theorem formatsIn_append_newline (front rest : List Char) :
    formatsIn (front ++ '\n' :: rest) = formatsIn front ++ formatsIn rest := by
  rw [formatsIn, List.splitOn_append_cons_self, List.filterMap_append]
  rfl

/-- Without a quote there is no call. -/
theorem formats_of_lacks {text : String} (h : Lacks '"' text) : formats text = [] := by
  refine List.filterMap_eq_nil_iff.mpr fun line hline => ?_
  cases hcall : callMark.isPrefixOf? (line.dropWhile (· == ' ')) with
  | none => rw [formatOfLine?, hcall, Option.map_none]
  | some rest =>
      have hsplit := List.isPrefixOf?_eq_some_iff_append_eq.mp hcall
      have hquote : '"' ∈ line.dropWhile (· == ' ') := by
        rw [← hsplit]
        exact List.mem_append_left _ (by decide)
      have hmem : '"' ∈ ['\n'].intercalate (text.toList.splitOn '\n') :=
        (mem_intercalate_iff (by decide)).mpr
          ⟨line, hline, (List.dropWhile_sublist _).subset hquote⟩
      rw [List.intercalate_splitOn] at hmem
      exact absurd hmem h

/-- The calls in lines that are put together are those in each line. -/
theorem formats_lines (lines : List String) :
    formats ("\n".intercalate lines ++ "\n") = lines.flatMap formats := by
  induction lines with
  | nil => decide
  | cons line lines ih =>
      rw [List.flatMap_cons, ← ih]
      cases lines with
      | nil =>
          rw [String.intercalate_singleton, formats, String.toList_append]
          exact formatsIn_append_newline _ _
      | cons other lines =>
          rw [String.intercalate_cons_cons, String.append_assoc, String.append_assoc, formats,
            String.toList_append, String.toList_append]
          exact formatsIn_append_newline _ _

/-! ### The calls of a declaration -/

/-- The calls in the lines for a declaration, in order. -/
def declarationPrints : Declaration → List Print
  | .constant c => [(constantPrints c.source).negative, (constantPrints c.source).nonNegative]
  | .struct s => structPrints s

/-- A call whose literal ends at the next quote, and which stands on one line. -/
structure Print.Closed (print : Print) : Prop where
  literal : Lacks '"' print.literal
  line : OneLine print.statement

/-- The only literal in the line of a call is its own. -/
theorem formats_statement {print : Print} (h : print.Closed) :
    formats ("    " ++ print.statement) = [print.literal.toList] := by
  have hline : Lacks '\n' ("    " ++ print.statement) :=
    Lacks.append_iff.mpr ⟨by decide, h.line⟩
  obtain ⟨tail, hstatement⟩ : ∃ tail,
      print.statement.toList = callMark ++ (print.literal.toList ++ '"' :: tail) := by
    rw [Print.statement]
    simp only [String.toList_append, List.append_assoc]
    exact ⟨_, rfl⟩
  have hcall : callMark.isPrefixOf? (("    " ++ print.statement).toList.dropWhile (· == ' '))
      = some (print.literal.toList ++ '"' :: tail) := by
    rw [String.toList_append, hstatement]
    exact List.isPrefixOf?_eq_some_iff_append_eq.mpr rfl
  have hliteral : (print.literal.toList ++ '"' :: tail).takeWhile (· != '"')
      = print.literal.toList := by
    rw [List.takeWhile_append_of_pos, List.takeWhile_cons_of_neg (by decide), List.append_nil]
    intro c hc
    have hne : c ≠ '"' := fun heq => h.literal (heq ▸ hc)
    simpa using hne
  rw [formats, formatsIn, List.splitOn_eq_singleton hline, List.filterMap_cons, formatOfLine?,
    hcall, Option.map_some, hliteral]
  rfl

/-- A text that ends neither a literal nor a line. -/
def Inert (s : String) : Prop :=
  Lacks '"' s ∧ Lacks '\n' s

instance (s : String) : Decidable (Inert s) :=
  inferInstanceAs (Decidable (_ ∧ _))

@[simp] theorem inert_append_iff {s t : String} : Inert (s ++ t) ↔ Inert s ∧ Inert t := by
  simp only [Inert, Lacks.append_iff]
  exact and_and_and_comm

@[simp] theorem inert_toString_iff {s : String} : Inert (toString s) ↔ Inert s :=
  Iff.rfl

theorem inert_of_isIdentifier {s : String} (h : Name.isIdentifier s.toList = true) : Inert s :=
  ⟨Name.not_mem_of_isIdentifier h (by decide), Name.not_mem_of_isIdentifier h (by decide)⟩

/-- A call is closed when its texts and its arguments are inert. The other pieces of a format
are. -/
theorem closed_of_inert {print : Print} (htexts : ∀ text, .text text ∈ print.pieces → Inert text)
    (harguments : ∀ argument ∈ print.arguments, Inert argument) : print.Closed := by
  have hpieces : ∀ piece ∈ print.pieces, Inert piece.spelling := by
    intro piece hpiece
    cases piece with
    | text content => exact htexts content hpiece
    | newline => decide
    | value conversion => cases conversion <;> decide
  constructor
  · rw [Print.literal, Lacks.join_iff, List.forall_mem_map]
    exact fun piece hpiece => (hpieces piece hpiece).1
  · show Lacks '\n' print.statement
    simp only [Print.statement, Print.literal, Lacks.append_iff, Lacks.join_iff,
      List.forall_mem_map]
    refine ⟨⟨⟨⟨by decide, fun piece hpiece => (hpieces piece hpiece).2⟩, by decide⟩, ?_⟩, by decide⟩
    exact fun argument hargument => ⟨by decide, (harguments argument hargument).2⟩

/-- The calls for a declaration show its names and nothing that could end them early. -/
theorem closed_of_mem_declarationPrints {d : Declaration} (h : d.Identified) :
    ∀ print ∈ declarationPrints d, print.Closed := by
  cases h with
  | @constant c source =>
      have hsource := inert_of_isIdentifier source
      simp only [declarationPrints, List.forall_mem_cons]
      refine ⟨closed_of_inert ?_ ?_, closed_of_inert ?_ ?_, List.forall_mem_nil _⟩ <;>
        simp +decide [constantPrints, hsource]
  | @struct s base spelled members =>
      have hbase := inert_of_isIdentifier base
      simp only [declarationPrints, structPrints, List.forall_mem_append, List.forall_mem_cons,
        List.forall_mem_map]
      refine ⟨⟨closed_of_inert ?_ ?_, fun member hmember => ?_⟩, closed_of_inert ?_ ?_,
        List.forall_mem_nil _⟩
      · simp +decide [sizePrint, hbase]
      · simp +decide [sizePrint, variableName, hbase]
      · have hname := inert_of_isIdentifier (members member hmember)
        refine closed_of_inert ?_ ?_ <;> simp +decide [memberPrint, variableName, hbase, hname]
      · simp [endPrint]
      · simp [endPrint]

/-- The literals in the lines for a declaration are those of its calls. -/
theorem formats_declarationLines {d : Declaration} (h : d.Identified) :
    (declarationLines d).flatMap formats
      = (declarationPrints d).map fun print => print.literal.toList := by
  have hclosed := closed_of_mem_declarationPrints h
  cases h with
  | @constant c source =>
      have hsource := (inert_of_isIdentifier source).1
      have htest : formats s!"  if (({c.source}) < 0)" = [] := by
        refine formats_of_lacks ?_
        simp +decide [hsource]
      have helse : formats "  else" = [] := by decide
      have hnegative := formats_statement (hclosed _ List.mem_cons_self)
      have hnonNegative := formats_statement (hclosed _ (List.mem_cons_of_mem _ List.mem_cons_self))
      simp only [declarationLines, constantLines, declarationPrints, List.flatMap_cons, htest,
        helse, hnegative, hnonNegative]
      rfl
  | @struct s base spelled members =>
      have hbase := (inert_of_isIdentifier base).1
      have hname : Lacks '"' s.name :=
        Name.lacks_of_structBase (spelled.symm ▸ hbase) (by decide) (by decide)
      have hvariable : formats s!"    {s.name} {variableName s.base};" = [] := by
        refine formats_of_lacks ?_
        simp +decide [hname, hbase, variableName]
      have hcalls : ((structPrints s).map fun print => "    " ++ print.statement).flatMap formats
          = (structPrints s).map fun print => print.literal.toList := by
        rw [List.flatMap_map, List.map_eq_flatMap]
        exact List.flatMap_congr fun print hprint => formats_statement (hclosed print hprint)
      have hopen : formats "  \x7b" = [] := by decide
      have hclose : formats "  \x7d" = [] := by decide
      simp only [declarationLines, structLines, declarationPrints, List.flatMap_append,
        List.flatMap_cons, hcalls, hopen, hvariable, hclose, List.flatMap_nil, List.append_nil,
        List.nil_append]

/-- The literals in a program are those that the headers bring, and then those of the calls for each
declaration. -/
theorem formats_source (includes : List Include) {declarations : List Declaration}
    (h : ∀ d ∈ declarations, d.Identified) :
    formats (source includes declarations)
      = formats (source includes []) ++ declarations.flatMap fun d =>
          (declarationPrints d).map fun print => print.literal.toList := by
  have hend : (["  return 0;", "\x7d"] : List String).flatMap formats = [] := by decide
  have hdeclarations : (declarations.flatMap declarationLines).flatMap formats
      = declarations.flatMap fun d =>
          (declarationPrints d).map fun print => print.literal.toList := by
    rw [List.flatMap_assoc]
    exact List.flatMap_congr fun d hd => formats_declarationLines (h d hd)
  simp only [source, formats_lines, sourceLines, List.flatMap_cons, List.flatMap_append, hend,
    hdeclarations, List.flatMap_nil, List.append_nil, List.append_assoc]

end Probe

end HeaderBind
