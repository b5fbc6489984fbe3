import HeaderBind.Proofs.Probe.Literal
import HeaderBind.Proofs.Text.Numeral
import HeaderBind.Resolution

/-!
# `HeaderBind.Proofs.Probe.Run`: what a run of the probe program prints

The program is text, and what it prints is decided by the literals in that text. `expand` reads a
literal as `printf` does, character by character: `\n` is the end of a line, the five conversions
that occur print the next argument in decimal or as a character, and everything else stands for
itself. An argument that does not fit the type of its conversion has no expansion, so a program
that is expanded at all has passed nothing that the types of C would cut.

A run goes through the literals of each declaration in order (`expandAll`). For a constant there are
two, and the sign says which call is made (`Resolved.expansions`). `expandAll_literals` says that a
declaration prints one line.
-/

set_option autoImplicit false

namespace HeaderBind

open HeaderBind.Text

namespace Probe

/-! ### The language of literals -/

/-- The value of an argument of a call. -/
inductive Argument where
  | number (value : Int)
  | letter (value : Char)
  deriving DecidableEq, Repr

/-- How many values half a `long` and half a `long long` have: those without a sign. -/
def signedLimit : Nat := Nat.pow 2 63

/-- How many values an `unsigned long` and an `unsigned long long` have. -/
def unsignedLimit : Nat := Nat.pow 2 64

/-- What a conversion prints for an argument, if the argument is of its type. -/
def Conversion.print? : Conversion → Argument → Option (List Char)
  | .signedLongLong, .number n | .signedLong, .number n =>
    if -(signedLimit : Int) ≤ n ∧ n < signedLimit then some (toString n).toList else none
  | .unsignedLongLong, .number n | .unsignedLong, .number n =>
    if 0 ≤ n ∧ n < unsignedLimit then some (toString n).toList else none
  | .character, .letter c => some [c]
  | _, _ => none

/-- What a conversion prints in front of the rest. -/
def Conversion.printBefore (conversion : Conversion) (argument : Argument)
    (rest : Option (List Char)) : Option (List Char) :=
  (conversion.print? argument).bind fun printed => rest.map (printed ++ ·)

/-- What `printf` prints for a literal and the values of its arguments. -/
def expand : (literal : List Char) → List Argument → Option (List Char)
  | [], [] => some []
  | [], _ :: _ => none
  | '\\' :: 'n' :: rest, arguments => (expand rest arguments).map ('\n' :: ·)
  | '%' :: 'l' :: 'l' :: 'd' :: rest, argument :: arguments =>
    Conversion.signedLongLong.printBefore argument (expand rest arguments)
  | '%' :: 'l' :: 'l' :: 'u' :: rest, argument :: arguments =>
    Conversion.unsignedLongLong.printBefore argument (expand rest arguments)
  | '%' :: 'l' :: 'd' :: rest, argument :: arguments =>
    Conversion.signedLong.printBefore argument (expand rest arguments)
  | '%' :: 'l' :: 'u' :: rest, argument :: arguments =>
    Conversion.unsignedLong.printBefore argument (expand rest arguments)
  | '%' :: 'c' :: rest, argument :: arguments =>
    Conversion.character.printBefore argument (expand rest arguments)
  | c :: rest, arguments =>
    if c = '\\' ∨ c = '%' then none else (expand rest arguments).map (c :: ·)

/-- What literals in a row print: each one with its arguments, and nothing where there are none
because the call is not made. -/
def expandAll : (literals : List (List Char)) → List (Option (List Argument)) → Option (List Char)
  | [], [] => some []
  | _ :: literals, none :: rest => expandAll literals rest
  | literal :: literals, some arguments :: rest =>
    (expand literal arguments).bind fun printed => (expandAll literals rest).map (printed ++ ·)
  | _, _ => none

/-- The letter for the sign of a member. -/
def signLetter (signed : Bool) : Char :=
  if signed then 's' else 'u'

/-- The values of the call that reports a member. -/
def memberArguments (fact : MemberFact) : List Argument :=
  [.number fact.offset, .number fact.width, .letter (signLetter fact.signed)]

end Probe

open Probe

/-- The values that a run expands the literals for a declaration with, when the header has the
values at hand. Of the two calls for a constant it makes the first one for a negative value, and
else the second one. -/
def Resolved.expansions : Resolved → List (Option (List Argument))
  | constant _ value =>
    if value < 0 then [some [.number value], none] else [none, some [.number value]]
  | struct _ facts _ =>
    some [.number facts.size] ::
      facts.members.map (fun fact => some (memberArguments fact)) ++ [some []]

namespace Probe

/-! ### What a piece of a format prints -/

/-- A piece whose text means itself in a literal. -/
def Piece.IsPlain : Piece → Prop
  | text content => ∀ c ∈ content.toList, c ≠ '\\' ∧ c ≠ '%'
  | newline => True
  | value _ => True

/-- What pieces print for the values of the arguments. -/
def printPieces : List Piece → List Argument → Option (List Char)
  | [], [] => some []
  | [], _ :: _ => none
  | .text content :: pieces, arguments => (printPieces pieces arguments).map (content.toList ++ ·)
  | .newline :: pieces, arguments => (printPieces pieces arguments).map ('\n' :: ·)
  | .value _ :: _, [] => none
  | .value conversion :: pieces, argument :: arguments =>
    conversion.printBefore argument (printPieces pieces arguments)

/-- A character that means itself in a literal. -/
theorem expand_cons {c : Char} (rest : List Char) (arguments : List Argument) (h : c ≠ '\\')
    (h' : c ≠ '%') : expand (c :: rest) arguments = (expand rest arguments).map (c :: ·) := by
  have hnone : ¬ (c = '\\' ∨ c = '%') := fun hc => hc.elim h h'
  rw [expand, if_neg hnone]
  -- What is left says that none of the rules for `\` and `%` applies.
  all_goals
    intros
    simp_all

theorem expand_append {text : List Char} (rest : List Char) (arguments : List Argument)
    (h : ∀ c ∈ text, c ≠ '\\' ∧ c ≠ '%') :
    expand (text ++ rest) arguments = (expand rest arguments).map (text ++ ·) := by
  induction text with
  | nil => cases hrest : expand rest arguments <;> simp [hrest]
  | cons c text ih =>
      obtain ⟨hslash, hpercent⟩ := h c List.mem_cons_self
      rw [List.cons_append, expand_cons _ _ hslash hpercent,
        ih fun d hd => h d (List.mem_cons_of_mem c hd), Option.map_map]
      rfl

/-- A literal prints what the pieces that it spells print. -/
theorem expand_pieces {pieces : List Piece} (arguments : List Argument)
    (h : ∀ piece ∈ pieces, piece.IsPlain) :
    expand (pieces.flatMap fun piece => piece.spelling.toList) arguments
      = printPieces pieces arguments := by
  -- A conversion takes its argument away, so the induction is over all lists of arguments.
  induction pieces generalizing arguments with
  | nil => cases arguments <;> rfl
  | cons piece pieces ih =>
      have hplain := h piece List.mem_cons_self
      have hrest := fun arguments => ih arguments fun p hp => h p (List.mem_cons_of_mem piece hp)
      rw [List.flatMap_cons]
      cases piece with
      | text content =>
          rw [printPieces, ← hrest]
          exact expand_append _ arguments hplain
      | newline =>
          rw [printPieces, ← hrest]
          rfl
      | value conversion =>
          cases arguments with
          | nil => cases conversion <;> rfl
          | cons argument arguments =>
              rw [printPieces, ← hrest]
              cases conversion <;> rfl

theorem Print.expand_eq {print : Print} (arguments : List Argument)
    (h : ∀ piece ∈ print.pieces, piece.IsPlain) :
    expand print.literal.toList arguments = printPieces print.pieces arguments := by
  rw [Print.literal, String.toList_join, List.flatMap_map]
  exact expand_pieces _ h

end Probe

/-! ### What a declaration prints -/

/-- What the program says about a member behind a comma. -/
def MemberFact.text (fact : MemberFact) : List Char :=
  fact.name.toList ++ '@' :: (toString fact.offset).toList ++ '+' :: (toString fact.width).toList
    ++ [signLetter fact.signed]

/-- The numbers of a member fit the types that the program casts them to. -/
structure MemberFact.InRange (fact : MemberFact) : Prop where
  offset_nonneg : 0 ≤ fact.offset
  offset_lt : fact.offset < signedLimit
  width_nonneg : 0 ≤ fact.width
  width_lt : fact.width < unsignedLimit

namespace Resolved

/-- What the program says about a declaration behind its key. -/
def value : Resolved → List Char
  | constant _ n => (toString n).toList
  | struct _ facts _ =>
    (toString facts.size).toList ++ facts.members.flatMap fun fact => ',' :: fact.text

/-- The line that the program prints for a declaration. -/
def line (r : Resolved) : List Char :=
  r.declaration.key.toList ++ '=' :: r.value

/-- What a program can find out about a declaration whose names are ASCII identifiers: a value of
one of the two widest types, or a size with facts about just the members, from which a layout can
be made. -/
inductive Reported : Resolved → Prop
  | constant {c : Constant} {n : Int} (name : Name.isIdentifier c.source.toList = true)
      (low : -(signedLimit : Int) ≤ n) (high : n < unsignedLimit) : Reported (.constant c n)
  | struct {s : Struct} {facts : StructFacts} {layout : Layout}
      (name : Name.isIdentifier s.base.toList = true)
      (spelled : Name.structBase s.name = s.base)
      (members : facts.members.map MemberFact.name = s.members)
      (names : ∀ member ∈ s.members, Name.isIdentifier member.toList = true)
      (size_nonneg : 0 ≤ facts.size) (size_lt : facts.size < unsignedLimit)
      (inRange : ∀ fact ∈ facts.members, fact.InRange)
      (laidOut : Layout.synthesize s.base facts.members s.hasTail (some facts.size) = .ok layout) :
      Reported (.struct s facts layout)

theorem Reported.identified {r : Resolved} (h : r.Reported) : r.declaration.Identified := by
  cases h with
  | constant name low high => exact .constant name
  | struct name spelled members names size_nonneg size_lt inRange laidOut =>
      exact .struct name spelled names

end Resolved

namespace Probe

/-- The characters of a name mean themselves in a literal. -/
theorem isPlain_of_isIdentifier {name : String} (h : Name.isIdentifier name.toList = true) :
    ∀ c ∈ name.toList, c ≠ '\\' ∧ c ≠ '%' := by
  intro c hc
  have hname := (isNameChar_of_isIdentifier h).2 c hc
  exact ⟨ne_of_isNameChar hname (by decide), ne_of_isNameChar hname (by decide)⟩

/-- The text in front of the value of a key. -/
theorem toList_keyMark (key : String) : s!"{key}=".toList = key.toList ++ ['='] := by
  rw [String.toList_append]
  rfl

/-- The text in front of the numbers of a member. -/
theorem toList_memberMark (member : String) :
    s!",{member}@".toList = ',' :: member.toList ++ ['@'] := by
  rw [String.toList_append, String.toList_append]
  rfl

theorem print?_signed {conversion : Conversion} {n : Int}
    (hconversion : conversion = .signedLongLong ∨ conversion = .signedLong)
    (low : -(signedLimit : Int) ≤ n) (high : n < signedLimit) :
    conversion.print? (.number n) = some (toString n).toList := by
  rcases hconversion with rfl | rfl <;> exact if_pos ⟨low, high⟩

theorem print?_unsigned {conversion : Conversion} {n : Int}
    (hconversion : conversion = .unsignedLongLong ∨ conversion = .unsignedLong)
    (low : 0 ≤ n) (high : n < unsignedLimit) :
    conversion.print? (.number n) = some (toString n).toList := by
  rcases hconversion with rfl | rfl <;> exact if_pos ⟨low, high⟩

/-- The text in front of the value of a key means itself. -/
theorem isPlain_keyMark {key : String} (h : Name.isIdentifier key.toList = true) :
    (Piece.text s!"{key}=").IsPlain := by
  intro c hc
  rw [toList_keyMark, List.mem_append, List.mem_singleton] at hc
  rcases hc with hc | rfl
  · exact isPlain_of_isIdentifier h c hc
  · decide

theorem isPlain_memberMark {member : String} (h : Name.isIdentifier member.toList = true) :
    (Piece.text s!",{member}@").IsPlain := by
  intro c hc
  rw [toList_memberMark, List.mem_append, List.mem_cons, List.mem_singleton] at hc
  rcases hc with (rfl | hc) | rfl
  · decide
  · exact isPlain_of_isIdentifier h c hc
  · decide

/-- The call for a constant prints its name and its value. -/
theorem expand_constantPrint {name : String} {conversion : Conversion} {n : Int}
    {arguments : List String} (hname : Name.isIdentifier name.toList = true)
    (hprint : conversion.print? (.number n) = some (toString n).toList) :
    expand (Print.literal ⟨[.text s!"{name}=", .value conversion, .newline], arguments⟩).toList
        [.number n]
      = some (name.toList ++ '=' :: (toString n).toList ++ ['\n']) := by
  have hplain : ∀ piece ∈ [Piece.text s!"{name}=", .value conversion, .newline],
      piece.IsPlain := by
    intro piece hpiece
    simp only [List.mem_cons, List.not_mem_nil, or_false] at hpiece
    rcases hpiece with rfl | rfl | rfl
    · exact isPlain_keyMark hname
    · exact trivial
    · exact trivial
  rw [Print.expand_eq _ hplain]
  simp only [printPieces, Conversion.printBefore, hprint, Option.bind_some, Option.map_some,
    toList_keyMark]
  simp

/-- The call for the size of a structure prints its name and the size. -/
theorem expand_sizePrint {base : String} {n : Int}
    (hbase : Name.isIdentifier base.toList = true) (low : 0 ≤ n) (high : n < unsignedLimit) :
    expand (sizePrint base).literal.toList [.number n]
      = some (base.toList ++ '=' :: (toString n).toList) := by
  have hplain : ∀ piece ∈ (sizePrint base).pieces, piece.IsPlain := by
    intro piece hpiece
    simp only [sizePrint, List.mem_cons, List.not_mem_nil, or_false] at hpiece
    rcases hpiece with rfl | rfl
    · exact isPlain_keyMark hbase
    · exact trivial
  rw [Print.expand_eq _ hplain]
  simp only [sizePrint, printPieces, Conversion.printBefore, print?_unsigned (Or.inr rfl) low high,
    Option.bind_some, Option.map_some, toList_keyMark]
  simp

/-- The call for a member prints a comma and the text of the member. -/
theorem expand_memberPrint (base : String) {fact : MemberFact}
    (hname : Name.isIdentifier fact.name.toList = true) (h : fact.InRange) :
    expand (memberPrint base fact.name).literal.toList (memberArguments fact)
      = some (',' :: fact.text) := by
  have hplain : ∀ piece ∈ (memberPrint base fact.name).pieces, piece.IsPlain := by
    intro piece hpiece
    simp only [memberPrint, List.mem_cons, List.not_mem_nil, or_false] at hpiece
    rcases hpiece with rfl | rfl | rfl | rfl | rfl
    · exact isPlain_memberMark hname
    · exact trivial
    · exact fun c hc => by simp_all
    · exact trivial
    · exact trivial
  have hoffset := print?_signed (Or.inr rfl) (Int.le_trans (by decide) h.offset_nonneg) h.offset_lt
  have hwidth := print?_unsigned (Or.inr rfl) h.width_nonneg h.width_lt
  have hletter : Conversion.character.print? (.letter (signLetter fact.signed))
      = some [signLetter fact.signed] := rfl
  rw [Print.expand_eq _ hplain]
  simp only [memberPrint, memberArguments, printPieces, Conversion.printBefore, hoffset, hwidth,
    hletter, Option.bind_some, Option.map_some, toList_memberMark, MemberFact.text]
  simp

/-- The last call for a structure ends the line. -/
theorem expand_endPrint : expand endPrint.literal.toList [] = some ['\n'] := by
  decide

/-! ### Literals in a row -/

theorem expandAll_cons {literal : List Char} {arguments : List Argument}
    {literals : List (List Char)} {expansions : List (Option (List Argument))}
    {printed rest : List Char} (h : expand literal arguments = some printed)
    (hrest : expandAll literals expansions = some rest) :
    expandAll (literal :: literals) (some arguments :: expansions) = some (printed ++ rest) := by
  rw [expandAll, h, hrest]
  rfl

theorem expandAll_append {literals others : List (List Char)}
    {expansions further : List (Option (List Argument))} {printed rest : List Char}
    (h : expandAll literals expansions = some printed)
    (hrest : expandAll others further = some rest) :
    expandAll (literals ++ others) (expansions ++ further) = some (printed ++ rest) := by
  fun_induction expandAll literals expansions generalizing printed with
  | case1 =>
      cases h
      exact hrest
  | case2 literal literals expansions ih => exact ih h
  | case3 literal literals arguments expansions ih =>
      obtain ⟨first, hfirst, h⟩ := Option.bind_eq_some_iff.mp h
      obtain ⟨middle, hmiddle, rfl⟩ := Option.map_eq_some_iff.mp h
      rw [List.cons_append, List.cons_append, expandAll_cons hfirst (ih hmiddle),
        List.append_assoc]
  | case4 => cases h

/-- What items print one after the other, from what each of them prints. -/
theorem expandAll_flatMap {α : Type} {items : List α} {literals : α → List (List Char)}
    {expansions : α → List (Option (List Argument))} {text : α → List Char}
    (h : ∀ item ∈ items, expandAll (literals item) (expansions item) = some (text item)) :
    expandAll (items.flatMap literals) (items.flatMap expansions) = some (items.flatMap text) := by
  induction items with
  | nil => rfl
  | cons item items ih =>
      rw [List.flatMap_cons, List.flatMap_cons, List.flatMap_cons]
      exact expandAll_append (h item List.mem_cons_self)
        (ih fun other hother => h other (List.mem_cons_of_mem item hother))

end Probe

namespace Resolved

/-- The literals for a declaration print its line. -/
theorem expandAll_literals {r : Resolved} (h : r.Reported) :
    expandAll ((declarationPrints r.declaration).map fun print => print.literal.toList)
        r.expansions = some (r.line ++ ['\n']) := by
  cases h with
  | @constant c n name low high =>
      show expandAll [_, _] (if n < 0 then _ else _) = some (line (.constant c n) ++ ['\n'])
      -- The sign chooses the call, and with it the bound that is not checked by the choice.
      by_cases hn : n < 0
      · have hrun : expand (constantPrints c.source).negative.literal.toList [.number n]
            = some (line (.constant c n) ++ ['\n']) :=
          expand_constantPrint name (print?_signed (Or.inl rfl) low (Int.lt_trans hn (by decide)))
        rw [if_pos hn, expandAll, hrun]
        simp [expandAll]
      · have hrun : expand (constantPrints c.source).nonNegative.literal.toList [.number n]
            = some (line (.constant c n) ++ ['\n']) :=
          expand_constantPrint name (print?_unsigned (Or.inl rfl) (by omega) high)
        rw [if_neg hn, expandAll, expandAll, hrun]
        simp [expandAll]
  | @struct s facts layout name spelled members names size_nonneg size_lt inRange laidOut =>
      have hmembers : expandAll
          (facts.members.flatMap fun fact => [(memberPrint s.base fact.name).literal.toList])
          (facts.members.flatMap fun fact => [some (memberArguments fact)])
            = some (facts.members.flatMap fun fact => ',' :: fact.text) := by
        refine expandAll_flatMap fun fact hfact => ?_
        have hname : Name.isIdentifier fact.name.toList = true :=
          names fact.name (members ▸ List.mem_map.mpr ⟨fact, hfact, rfl⟩)
        have hrun := expand_memberPrint s.base hname (inRange fact hfact)
        rw [expandAll_cons hrun (rfl : expandAll [] [] = some []), List.append_nil]
      have hend := expandAll_cons expand_endPrint (rfl : expandAll [] [] = some [])
      have hrun := expandAll_append
        (expandAll_cons (expand_sizePrint name size_nonneg size_lt) hmembers) hend
      have hprints : (declarationPrints (.struct s)).map (fun print => print.literal.toList)
          = (sizePrint s.base).literal.toList ::
              facts.members.map (fun fact => (memberPrint s.base fact.name).literal.toList) ++
                [endPrint.literal.toList] := by
        simp [declarationPrints, structPrints, ← members]
      rw [← List.map_eq_flatMap, ← List.map_eq_flatMap] at hrun
      rw [declaration, hprints, expansions, hrun]
      simp [line, value, declaration, Declaration.key]

end Resolved

end HeaderBind
